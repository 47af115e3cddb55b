import Mathlib.Algebra.Order.BigOperators.Group.List
import Mathlib.Algebra.Order.Ring.Nat
import IDoris.Library.Recency
import IDoris.Proxy.Registry

/-!
# The replay cache

A write moves its key to the end of the cache, an entry that is too large on its own only
removes the key, and then expired entries and entries over the limits leave from the front.
The byte total saturates; under the limits that a proxy is built with it never does.
-/
namespace Proxy

namespace ReplayCache

section Source

/-- `usize::MAX` of a 64-bit build. -/
def usizeMax : Nat := 2 ^ 64 - 1

def saturatingAdd (a b : Nat) : Nat := min (a + b) usizeMax

abbrev Cache := List (String × CacheEntry)

def entryBytes (layout : Layout) (key : String) (entry : CacheEntry) : Nat :=
  saturatingAdd (saturatingAdd (saturatingAdd key.utf8ByteSize entry.recordId.utf8ByteSize)
    entry.body.size) layout.cacheEntrySize

/-- Where `now - window` has no representation, `now` itself. -/
def cutoff (config : ProxyConfig) (now : Nat) : Nat :=
  if config.window ≤ now then now - config.window else now

def totalBytes (config : ProxyConfig) (cache : Cache) : Nat :=
  cache.foldl (fun total e => saturatingAdd total (entryBytes config.layout e.1 e.2)) 0

/-- The loop over the running total `bytes`. -/
def evict (config : ProxyConfig) (bytes : Nat) : Cache → Cache
  | [] => []
  | e :: rest =>
    if config.maxEntries < (e :: rest).length ∨ config.maxCacheBytes < bytes then
      evict config (bytes - entryBytes config.layout e.1 e.2) rest
    else e :: rest

def prune (config : ProxyConfig) (now : Nat) (cache : Cache) : Cache :=
  let cache := cache.dropWhile fun e => e.2.storedAt ≤ cutoff config now
  evict config (totalBytes config cache) cache

def remember (config : ProxyConfig) (now : Nat) (key : String) (entry : CacheEntry)
    (cache : Cache) : Cache :=
  let cache := cache.filter fun e => e.1 ≠ key
  prune config now (if entryBytes config.layout key entry ≤ config.maxCacheBytes then
    cache ++ [(key, entry)] else cache)

/-- A call of `remember`; the entry was stamped before the lock was taken. -/
structure Call where
  key : String
  entry : CacheEntry
  now : Nat

def cacheAfter (config : ProxyConfig) (calls : List Call) : Cache :=
  calls.foldl (fun cache call => remember config call.now call.key call.entry cache) []

end Source

section Limits

variable {config : ProxyConfig} {cache : Cache} {now bytes : Nat} {key : String}
  {entry : CacheEntry}

def fits (config : ProxyConfig) (key : String) (entry : CacheEntry) : Bool :=
  config.layout.entryBytes key entry ≤ config.maxCacheBytes

def unexpired (config : ProxyConfig) (now : Nat) (e : String × CacheEntry) : Bool :=
  cutoff config now < e.2.storedAt

def withinLimits (config : ProxyConfig) (cache : Cache) : Bool :=
  cache.length ≤ config.maxEntries ∧ Shared.cacheBytes config cache ≤ config.maxCacheBytes

/-- All the entries are unexpired, and together they are within the limits. -/
def affordable (config : ProxyConfig) (now : Nat) (cache : Cache) : Bool :=
  cache.all (unexpired config now) && withinLimits config cache

theorem cacheBytes_suffix {part : Cache} (h : part <:+ cache) :
    Shared.cacheBytes config part ≤ Shared.cacheBytes config cache := by
  obtain ⟨front, rfl⟩ := h
  simp [Shared.cacheBytes]

theorem all_unexpired_closed :
    Recency.SuffixClosed fun part : Cache => part.all (unexpired config now) := by
  intro part cache h hall
  rw [List.all_eq_true] at hall ⊢
  exact fun e he => hall e (h.subset he)

theorem withinLimits_closed : Recency.SuffixClosed (withinLimits config) := by
  intro part cache h hlimits
  simp only [withinLimits, decide_eq_true_eq] at hlimits ⊢
  exact ⟨h.length_le.trans hlimits.1, (cacheBytes_suffix h).trans hlimits.2⟩

theorem affordable_closed : Recency.SuffixClosed (affordable config now) := by
  intro part cache h haffordable
  simp only [affordable, Bool.and_eq_true] at haffordable ⊢
  exact ⟨all_unexpired_closed part cache h haffordable.1,
    withinLimits_closed part cache h haffordable.2⟩

theorem affordable_nil (config : ProxyConfig) (now : Nat) : affordable config now [] = true := by
  simp [affordable, withinLimits, Shared.cacheBytes]

/-- Dropping from the front with exact sums leaves the longest suffix within the limits. -/
theorem shrink_eq_longest (cache : Cache) :
    Shared.shrink config cache = Recency.longest (withinLimits config) cache := by
  induction cache with
  | nil => rfl
  | cons e rest ih =>
    have htest : withinLimits config (e :: rest) = true ↔
        ¬(config.maxEntries < (e :: rest).length ∨
          config.maxCacheBytes < Shared.cacheBytes config (e :: rest)) := by
      simp only [withinLimits, decide_eq_true_eq, not_or, not_lt]
    simp only [Shared.shrink, Recency.longest, htest, ih, ite_not]

/-- In a cache whose stamps do not decrease, expired entries stand in front. -/
theorem pruneCache_eq_longest
    (hsorted : cache.Pairwise fun a b => a.2.storedAt ≤ b.2.storedAt) :
    Shared.pruneCache config now cache = Recency.longest (affordable config now) cache := by
  have hpairwise : cache.Pairwise fun a b =>
      unexpired config now a = true → unexpired config now b = true := by
    refine hsorted.imp ?_
    intro a b hle
    simp only [unexpired, decide_eq_true_eq]
    omega
  have hexpire : (cache.dropWhile fun e => e.2.storedAt ≤ cutoff config now) =
      cache.dropWhile fun e => !unexpired config now e := by
    congr 1
    funext e
    simp [unexpired, ← Bool.decide_eq_false, not_lt]
  have hprune : Shared.pruneCache config now cache =
      Shared.shrink config (cache.dropWhile fun e => e.2.storedAt ≤ cutoff config now) := rfl
  rw [hprune, hexpire, Recency.dropWhile_eq_longest hpairwise, shrink_eq_longest,
    Recency.longest_longest all_unexpired_closed]
  rfl

end Limits

section Saturation

variable {config : ProxyConfig} {cache : Cache} {now bytes : Nat} {key : String}
  {entry : CacheEntry}

theorem saturatingAdd_eq {a b : Nat} (h : a + b ≤ usizeMax) : saturatingAdd a b = a + b :=
  Nat.min_eq_left h

/-- A saturated size is too large for every limit below the greatest number. -/
theorem entryBytes_le (hlimit : config.maxCacheBytes < usizeMax) :
    entryBytes config.layout key entry ≤ config.maxCacheBytes ↔
      config.layout.entryBytes key entry ≤ config.maxCacheBytes := by
  unfold entryBytes Layout.entryBytes saturatingAdd
  omega

theorem entryBytes_eq (hlimit : config.maxCacheBytes < usizeMax)
    (h : config.layout.entryBytes key entry ≤ config.maxCacheBytes) :
    entryBytes config.layout key entry = config.layout.entryBytes key entry := by
  unfold entryBytes Layout.entryBytes saturatingAdd at *
  omega

theorem totalBytes_eq (hlimit : config.maxCacheBytes < usizeMax)
    (hfits : ∀ e ∈ cache, config.layout.entryBytes e.1 e.2 ≤ config.maxCacheBytes)
    (hsum : Shared.cacheBytes config cache ≤ usizeMax) :
    totalBytes config cache = Shared.cacheBytes config cache := by
  induction cache using List.reverseRecOn with
  | nil => rfl
  | append_singleton front e ih =>
    have hsplit : Shared.cacheBytes config (front ++ [e]) =
        Shared.cacheBytes config front + config.layout.entryBytes e.1 e.2 := by
      simp [Shared.cacheBytes]
    have hfront := ih (fun e he => hfits e (List.mem_append_left _ he)) (by omega)
    have hentry := entryBytes_eq hlimit (hfits e (by simp))
    simp only [totalBytes, List.foldl_append, List.foldl_cons, List.foldl_nil] at hfront ⊢
    rw [hfront, hentry, hsplit]
    exact saturatingAdd_eq (by omega)

/-- The running total is the sum of what is left. -/
theorem evict_eq_shrink (hlimit : config.maxCacheBytes < usizeMax)
    (hfits : ∀ e ∈ cache, config.layout.entryBytes e.1 e.2 ≤ config.maxCacheBytes) :
    evict config (Shared.cacheBytes config cache) cache = Shared.shrink config cache := by
  induction cache with
  | nil => rfl
  | cons e rest ih =>
    have hentry := entryBytes_eq hlimit (hfits e List.mem_cons_self)
    have hrest : Shared.cacheBytes config (e :: rest) - entryBytes config.layout e.1 e.2 =
        Shared.cacheBytes config rest := by
      rw [hentry]
      simp [Shared.cacheBytes]
    rw [evict, Shared.shrink, hrest, ih fun other hother => hfits other (List.mem_cons_of_mem e hother)]

/-- What the limits promise about a cache between two calls. -/
structure Sized (config : ProxyConfig) (cache : Cache) : Prop where
  fits : ∀ e ∈ cache, config.layout.entryBytes e.1 e.2 ≤ config.maxCacheBytes
  bytes : Shared.cacheBytes config cache ≤ config.maxCacheBytes

def inserted (config : ProxyConfig) (key : String) (entry : CacheEntry) (cache : Cache) : Cache :=
  if config.layout.entryBytes key entry ≤ config.maxCacheBytes then
    cache.filter (fun e => e.1 ≠ key) ++ [(key, entry)]
  else cache.filter fun e => e.1 ≠ key

theorem cacheBytes_filter (p : String × CacheEntry → Bool) :
    Shared.cacheBytes config (cache.filter p) ≤ Shared.cacheBytes config cache :=
  (List.filter_sublist.map _).sum_le_sum fun _ _ => Nat.zero_le _

theorem inserted_fits (h : Sized config cache) :
    ∀ e ∈ inserted config key entry cache,
      config.layout.entryBytes e.1 e.2 ≤ config.maxCacheBytes := by
  unfold inserted
  split
  · rename_i hnew
    intro e he
    obtain hold | hlast := List.mem_append.mp he
    · exact h.fits e (List.mem_of_mem_filter hold)
    · rw [List.mem_singleton.mp hlast]
      exact hnew
  · exact fun e he => h.fits e (List.mem_of_mem_filter he)

theorem inserted_bytes (h : Sized config cache) :
    Shared.cacheBytes config (inserted config key entry cache) ≤ 2 * config.maxCacheBytes := by
  have hold : Shared.cacheBytes config (cache.filter fun e => e.1 ≠ key) ≤
      config.maxCacheBytes := (cacheBytes_filter _).trans h.bytes
  unfold inserted
  split
  · rename_i hnew
    have hsplit : Shared.cacheBytes config (cache.filter (fun e => e.1 ≠ key) ++ [(key, entry)]) =
        Shared.cacheBytes config (cache.filter fun e => e.1 ≠ key) +
          config.layout.entryBytes key entry := by
      simp [Shared.cacheBytes]
    omega
  · omega

/-- With limits that are far from the greatest number, saturation changes nothing. -/
theorem remember_eq (hlimit : 2 * config.maxCacheBytes ≤ usizeMax) (h : Sized config cache) :
    remember config now key entry cache =
      Shared.pruneCache config now (inserted config key entry cache) := by
  have hbelow : config.maxCacheBytes < usizeMax := by
    unfold usizeMax at *
    omega
  have hfits : ∀ e ∈ inserted config key entry cache,
      config.layout.entryBytes e.1 e.2 ≤ config.maxCacheBytes := inserted_fits h
  have hbytes : Shared.cacheBytes config (inserted config key entry cache) ≤
      2 * config.maxCacheBytes := inserted_bytes h
  have hremember : remember config now key entry cache =
      prune config now (inserted config key entry cache) := by
    simp only [remember, inserted, entryBytes_le hbelow]
  have hprune : Shared.pruneCache config now (inserted config key entry cache) =
      Shared.shrink config ((inserted config key entry cache).dropWhile fun e =>
        e.2.storedAt ≤ cutoff config now) := rfl
  have hsuffix := List.dropWhile_suffix (l := inserted config key entry cache)
    fun e => decide (e.2.storedAt ≤ cutoff config now)
  rw [hremember, prune, hprune, totalBytes_eq hbelow (fun e he => hfits e (hsuffix.subset he))
    (((cacheBytes_suffix hsuffix).trans hbytes).trans hlimit),
    evict_eq_shrink hbelow fun e he => hfits e (hsuffix.subset he)]

end Saturation

section Runs

variable {config : ProxyConfig} {calls : List Call} {call : Call} {e : String × CacheEntry}

/-- Calls at times that do not decrease, by the stamps of their entries and by the clock of the
prune. -/
structure Timely (calls : List Call) : Prop where
  stamps : calls.Pairwise fun a b => a.entry.storedAt ≤ b.entry.storedAt
  clock : calls.Pairwise fun a b => a.now ≤ b.now
  stamped : ∀ call ∈ calls, call.entry.storedAt ≤ call.now

/-- A call as a write to a bounded table. -/
def Call.write (config : ProxyConfig) (call : Call) : Recency.Write String CacheEntry where
  key := call.key
  item := if fits config call.key call.entry then some call.entry else none
  limit := affordable config call.now

/-- What each key was last written to, in this order; a key whose last entry is too large on its
own has none. -/
def lastWritten (config : ProxyConfig) (calls : List Call) : Cache :=
  Recency.written (calls.map (Call.write config))

/-- The entry is the last one written under its key, it fits on its own, and at its write and at
every call since it was affordable together with what was last written after it. -/
def Lasts (config : ProxyConfig) (calls : List Call) (e : String × CacheEntry) : Prop :=
  Recency.Lasts (calls.map (Call.write config)) e

theorem Timely.init (h : Timely (calls ++ [call])) : Timely calls where
  stamps := (List.pairwise_append.mp h.stamps).1
  clock := (List.pairwise_append.mp h.clock).1
  stamped earlier hearlier := h.stamped earlier (List.mem_append_left _ hearlier)

theorem write_lawful (call : Call) : Recency.Lawful (call.write config) where
  nil := affordable_nil config call.now
  closed := affordable_closed

theorem place_eq_inserted (cache : Cache) :
    Recency.place cache (call.write config) = inserted config call.key call.entry cache := by
  unfold Recency.place inserted Call.write fits
  split <;> simp_all

theorem lastWritten_append :
    lastWritten config (calls ++ [call]) =
      inserted config call.key call.entry (lastWritten config calls) := by
  simp only [lastWritten, List.map_append, List.map_cons, List.map_nil, Recency.written_append,
    place_eq_inserted]

theorem mem_inserted {cache : Cache} (h : e ∈ inserted config call.key call.entry cache) :
    e ∈ cache ∨ e.2 = call.entry := by
  unfold inserted at h
  split at h
  · obtain hold | hlast := List.mem_append.mp h
    · exact .inl (List.mem_of_mem_filter hold)
    · exact .inr (congrArg Prod.snd (List.mem_singleton.mp hlast))
  · exact .inl (List.mem_of_mem_filter h)

theorem mem_lastWritten (h : e ∈ lastWritten config calls) : ∃ call ∈ calls, call.entry = e.2 := by
  induction calls using List.reverseRecOn with
  | nil => cases h
  | append_singleton calls call ih =>
    rw [lastWritten_append] at h
    obtain hold | hnew := mem_inserted h
    · obtain ⟨earlier, hearlier, hentry⟩ := ih hold
      exact ⟨earlier, List.mem_append_left _ hearlier, hentry⟩
    · exact ⟨call, by simp, hnew.symm⟩

/-- The order of last write is the order of the stamps. -/
theorem lastWritten_sorted (h : Timely calls) :
    (lastWritten config calls).Pairwise fun a b => a.2.storedAt ≤ b.2.storedAt := by
  induction calls using List.reverseRecOn with
  | nil => exact List.Pairwise.nil
  | append_singleton calls call ih =>
    have hold : ((lastWritten config calls).filter fun e => e.1 ≠ call.key).Pairwise
        fun a b => a.2.storedAt ≤ b.2.storedAt := (ih h.init).filter _
    rw [lastWritten_append, inserted]
    split
    · refine List.pairwise_append.mpr ⟨hold, List.pairwise_singleton _ _, ?_⟩
      intro a ha b hb
      obtain ⟨earlier, hearlier, hentry⟩ := mem_lastWritten (List.mem_of_mem_filter ha)
      rw [List.mem_singleton.mp hb, ← hentry]
      exact (List.pairwise_append.mp h.stamps).2.2 earlier hearlier call (List.mem_singleton.mpr rfl)
    · exact hold

theorem cacheAfter_append :
    cacheAfter config (calls ++ [call]) =
      remember config call.now call.key call.entry (cacheAfter config calls) := by
  simp [cacheAfter]

theorem kept_sized (calls : List Call) :
    Sized config (Recency.kept (calls.map (Call.write config))) := by
  induction calls using List.reverseRecOn with
  | nil => exact ⟨nofun, Nat.zero_le _⟩
  | append_singleton calls call ih =>
    simp only [List.map_append, List.map_cons, List.map_nil, Recency.kept_append,
      place_eq_inserted]
    constructor
    · intro e he
      exact inserted_fits ih e ((Recency.longest_suffix _ _).subset he)
    · have hlimit := Recency.longest_limit (p := affordable config call.now)
        (affordable_nil config call.now)
        (l := inserted config call.key call.entry (Recency.kept (calls.map (Call.write config))))
      simp only [affordable, withinLimits, Bool.and_eq_true, decide_eq_true_eq] at hlimit
      exact hlimit.2.2

/-- The cache is what the limits have left of the writes. -/
theorem cacheAfter_eq_kept (hlimit : 2 * config.maxCacheBytes ≤ usizeMax) (h : Timely calls) :
    cacheAfter config calls = Recency.kept (calls.map (Call.write config)) := by
  induction calls using List.reverseRecOn with
  | nil => rfl
  | append_singleton calls call ih =>
    have hpart : inserted config call.key call.entry
        (Recency.kept (calls.map (Call.write config))) <:+ lastWritten config (calls ++ [call]) := by
      rw [lastWritten_append, ← place_eq_inserted, ← place_eq_inserted]
      exact Recency.place_suffix (Recency.kept_suffix _)
    have hsorted := (lastWritten_sorted h).sublist hpart.sublist
    rw [cacheAfter_append, ih h.init, remember_eq hlimit (kept_sized calls),
      pruneCache_eq_longest hsorted]
    simp only [List.map_append, List.map_cons, List.map_nil, Recency.kept_append,
      place_eq_inserted]
    rfl

/-- The guarantees of the cache after a call. -/
structure Exact (config : ProxyConfig) (calls : List Call) (now : Nat) (cache : Cache) : Prop where
  entries : cache.length ≤ config.maxEntries
  bytes : Shared.cacheBytes config cache ≤ config.maxCacheBytes
  fresh : ∀ e ∈ cache, now - e.2.storedAt < config.window
  keys : (cache.map Prod.fst).Nodup
  order : cache <:+ lastWritten config calls
  held : ∀ e, e ∈ cache ↔ Lasts config calls e

/-- After every call the cache holds exactly the entries that have been affordable ever since
they were written, in the order of last write. -/
theorem replay_cache_exact (hlimit : 2 * config.maxCacheBytes ≤ usizeMax)
    (h : Timely (calls ++ [call])) :
    Exact config (calls ++ [call]) call.now (cacheAfter config (calls ++ [call])) := by
  have hkept := cacheAfter_eq_kept hlimit h
  have horder : cacheAfter config (calls ++ [call]) <:+ lastWritten config (calls ++ [call]) := by
    rw [hkept]
    exact Recency.kept_suffix _
  have hlast : affordable config call.now (cacheAfter config (calls ++ [call])) = true := by
    rw [hkept]
    simp only [List.map_append, List.map_cons, List.map_nil, Recency.kept_append]
    exact Recency.longest_limit (affordable_nil config call.now)
  simp only [affordable, withinLimits, Bool.and_eq_true, decide_eq_true_eq, List.all_eq_true]
    at hlast
  obtain ⟨hfresh, hentries, hbytes⟩ := hlast
  refine ⟨hentries, hbytes, ?_, ?_, horder, ?_⟩
  · intro e he
    have hunexpired : cutoff config call.now < e.2.storedAt := by simpa [unexpired] using hfresh e he
    obtain ⟨writer, hwriter, hentry⟩ := mem_lastWritten (horder.subset he)
    have hstamped : e.2.storedAt ≤ call.now := by
      rw [← hentry]
      obtain hearlier | hsame := List.mem_append.mp hwriter
      · exact (h.stamped writer hwriter).trans
          ((List.pairwise_append.mp h.clock).2.2 writer hearlier call (List.mem_singleton.mpr rfl))
      · rw [List.mem_singleton.mp hsame]
        exact h.stamped call (by simp)
    unfold cutoff at hunexpired
    split at hunexpired <;> omega
  · exact (Recency.keys_written _).sublist (horder.sublist.map _)
  · intro e
    rw [hkept]
    refine Recency.mem_kept_iff ?_
    intro write hwrite
    obtain ⟨call, -, rfl⟩ := List.mem_map.mp hwrite
    exact write_lawful call

end Runs

section Samples

/-- The last entry of each key that fits on its own, in order of last write. -/
def lastFitting (config : ProxyConfig) (calls : List Call) : Cache :=
  Recency.written ((calls.filter fun call => fits config call.key call.entry).map
    (Call.write config))

/-- The cache after a call is the longest suffix of the unexpired ones that is within the
limits. -/
def AsClaimed (config : ProxyConfig) (calls : List Call) (call : Call) : Prop :=
  cacheAfter config (calls ++ [call]) = Recency.longest (withinLimits config)
    ((lastFitting config (calls ++ [call])).filter fun e =>
      call.now - e.2.storedAt < config.window)

/-- Ten bytes, of which an entry takes its key and its body. -/
def smallCache : ProxyConfig where
  window := 60
  maxEntries := 10
  maxBodyBytes := 100
  maxCacheBytes := 10
  maxFlightBytes := 100
  retries := 0
  layout := ⟨0, 0, 0, 0, String.utf8ByteSize⟩

def callAt (now : Nat) (key : String) (size : Nat) : Call :=
  ⟨key, ⟨now, ⟨0, by decide⟩, 200, ⟨size, none⟩, "", .loopback⟩, now⟩

theorem timely_at (now : Nat) (writes : List (String × Nat)) :
    Timely (writes.map fun w => callAt now w.1 w.2) where
  stamps := List.pairwise_map.mpr (List.pairwise_of_forall fun _ _ => le_rfl)
  clock := List.pairwise_map.mpr (List.pairwise_of_forall fun _ _ => le_rfl)
  stamped call hcall := by
    obtain ⟨w, -, rfl⟩ := List.mem_map.mp hcall
    exact le_rfl

/-- A rewrite that is too large removes the entry that fits; an evicted entry does not come back
when a later rewrite leaves room for it; and before the clock reaches the window nothing stays. -/
theorem not_as_claimed :
    Timely [callAt 100 "a" 3, callAt 100 "a" 20] ∧
    ¬AsClaimed smallCache [callAt 100 "a" 3] (callAt 100 "a" 20) ∧
    Timely [callAt 100 "a" 5, callAt 100 "b" 4, callAt 100 "b" 1] ∧
    ¬AsClaimed smallCache [callAt 100 "a" 5, callAt 100 "b" 4] (callAt 100 "b" 1) ∧
    Timely [callAt 0 "a" 3] ∧ ¬AsClaimed smallCache [] (callAt 0 "a" 3) := by
  refine ⟨timely_at 100 [("a", 3), ("a", 20)], fun h => ?_,
    timely_at 100 [("a", 5), ("b", 4), ("b", 1)], fun h => ?_, timely_at 0 [("a", 3)], fun h => ?_⟩
  · exact absurd (congrArg List.length h) (by decide +kernel)
  · exact absurd (congrArg List.length h) (by decide +kernel)
  · exact absurd (congrArg List.length h) (by decide +kernel)

theorem replay_cache_exact_sample :
    Exact smallCache [callAt 100 "a" 5, callAt 100 "b" 4] 100
      (cacheAfter smallCache [callAt 100 "a" 5, callAt 100 "b" 4]) := by
  have hlimit : 2 * smallCache.maxCacheBytes ≤ usizeMax := by decide
  have htimely : Timely ([callAt 100 "a" 5] ++ [callAt 100 "b" 4]) :=
    timely_at 100 [("a", 5), ("b", 4)]
  exact replay_cache_exact hlimit htimely

end Samples

end ReplayCache

end Proxy
