import IDoris.Library.Keyed
import IDoris.Proxy.Forward

/-!
# The response cache and the flight registry

What all forwards share. Flights live on a heap: the registry and the callers
hold references to them, and the registry keeps a flight while a caller does.
-/
namespace Proxy

/-- `holder` has the outcome locked. -/
structure Flight where
  fingerprint : Fingerprint
  outcome : Option ForwardOutcome
  holder : Option Nat
  cancelledAt : Option Nat
  retainedBytes : Nat
  baseBytes : Nat

structure Shared where
  clock : Nat
  cache : List (String × CacheEntry)
  flights : Keyed.Map String Nat
  heap : Nat → Flight
  nextFlight : Nat
  flightBytes : Nat

namespace Shared

section Cache

def cacheBytes (config : ProxyConfig) (cache : List (String × CacheEntry)) : Nat :=
  (cache.map fun e => config.layout.entryBytes e.1 e.2).sum

/-- Drop from the front until the number of entries and their bytes fit. -/
def shrink (config : ProxyConfig) : List (String × CacheEntry) → List (String × CacheEntry)
  | [] => []
  | e :: rest =>
    if config.maxEntries < (e :: rest).length ∨ config.maxCacheBytes < cacheBytes config (e :: rest) then
      shrink config rest
    else e :: rest

def pruneCache (config : ProxyConfig) (now : Nat) (cache : List (String × CacheEntry)) :
    List (String × CacheEntry) :=
  let cutoff := if config.window ≤ now then now - config.window else now
  shrink config (cache.dropWhile fun e => e.2.storedAt ≤ cutoff)

/-- The entry of the key moves to the end, so insertion order is expiry order. -/
def remember (shared : Shared) (config : ProxyConfig) (key : String) (entry : CacheEntry) : Shared :=
  let others := shared.cache.filter fun e => e.1 ≠ key
  let cache := if config.layout.entryBytes key entry ≤ config.maxCacheBytes then
    others ++ [(key, entry)] else others
  { shared with cache := pruneCache config shared.clock cache }

def conflict : ForwardOutcome := flightFailure 409 "request_id_conflict"

/-- A local-only request never replays an entry that was not served on loopback. -/
def lookupCached (shared : Shared) (config : ProxyConfig) (key : String) (fingerprint : Fingerprint)
    (opts : ForwardOpts) : Option ForwardOutcome :=
  ((shared.cache.lookup key).filter fun entry => shared.clock - entry.storedAt < config.window).bind
    fun entry =>
      if entry.fingerprint ≠ fingerprint then some conflict
      else if opts.privacy = .localOnly ∧ entry.servedLocality ≠ .loopback then none
      else some
        { status := entry.status
          body := entry.body
          contentType := some "application/json"
          cached := true
          originRecordId := some entry.recordId
          replayedServedLocality := some entry.servedLocality
          retries := 0
          execution := .replay }

end Cache

section Flights

def modifyFlight (shared : Shared) (f : Nat) (g : Flight → Flight) : Shared :=
  { shared with heap := Function.update shared.heap f (g (shared.heap f)) }

@[simp] theorem heap_modifyFlight_self (shared : Shared) (f : Nat) (g : Flight → Flight) :
    (shared.modifyFlight f g).heap f = g (shared.heap f) :=
  Function.update_self ..

theorem heap_modifyFlight_of_ne {shared : Shared} {f f' : Nat} {g : Flight → Flight}
    (h : f' ≠ f) : (shared.modifyFlight f g).heap f' = shared.heap f' :=
  Function.update_of_ne h ..

/-- What holds of the flight as it is written and of the others as they are. -/
theorem heap_modifyFlight_cases {P : Nat → Flight → Prop} {shared : Shared} {f : Nat}
    {g : Flight → Flight} (f' : Nat) (hself : P f (g (shared.heap f)))
    (hother : f' ≠ f → P f' (shared.heap f')) : P f' ((shared.modifyFlight f g).heap f') := by
  by_cases h : f' = f
  · subst h
    rw [heap_modifyFlight_self]
    exact hself
  · rw [heap_modifyFlight_of_ne h]
    exact hother h

def reserveBytes (shared : Shared) (config : ProxyConfig) (bytes : Nat) : Option Shared :=
  if config.maxFlightBytes - shared.flightBytes < bytes then none
  else some { shared with flightBytes := shared.flightBytes + bytes }

/-- A flight stays while a caller holds it, and through the window after it was retained. -/
def stays (shared : Shared) (config : ProxyConfig) (strongCount : Nat → Nat) (f : Nat) : Bool :=
  1 < strongCount f ||
    (shared.heap f).cancelledAt.any fun retainedAt => shared.clock - retainedAt < config.window

def fallback : ForwardOutcome := flightFailure 502 "upstream_unavailable"

def newFlight (config : ProxyConfig) (key : String) (fingerprint : Fingerprint) : Flight where
  fingerprint := fingerprint
  outcome := none
  holder := none
  cancelledAt := none
  retainedBytes := config.layout.flightBaseBytes key + config.layout.outcomeBytes fallback
  baseBytes := config.layout.flightBaseBytes key

def insertFlight (shared : Shared) (key : String) (flight : Flight) : Shared :=
  { shared with
    flights := shared.flights.insert key shared.nextFlight
    heap := Function.update shared.heap shared.nextFlight flight
    nextFlight := shared.nextFlight + 1 }

end Flights

end Shared

end Proxy
