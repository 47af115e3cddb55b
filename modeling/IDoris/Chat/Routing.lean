import IDoris.Dispatch.Select

/-!
# The routing policy

The first rule that a request matches says which tiers may serve it. No rule lets a request that
is local only reach the remote tier.
-/
namespace Chat

open Dispatch Policy Supervisor
open Proxy (PrivacyClass)

section Policy

/-- What a rule asks for; a field that is left out asks for nothing. -/
structure Condition where
  privacy : Option PrivacyClass
  intent : Option String
  complexity : Option Complexity
  capabilities : Option (List Capability)

structure Action where
  tiers : Option (List Tier)
  failClosed : Option Bool
  capability : Option Capability
  load : Option LoadMode

structure Rule where
  condition : Condition
  action : Action

structure RoutingPolicy where
  rules : List Rule
  default : Action

inductive MatchedRule where
  | rule (index : Nat)
  | default
  deriving DecidableEq

structure RouteDecision where
  tiers : List Tier
  failClosed : Bool
  capability : Option Capability
  load : Option LoadMode
  matchedRule : MatchedRule

def Condition.matches (condition : Condition) (task : TaskProfile) : Bool :=
  condition.privacy.all (fun privacy => task.privacy = some privacy) &&
    condition.intent.all (fun intent => task.intent = some intent) &&
    condition.complexity.all (fun complexity => task.complexity = some complexity) &&
    condition.capabilities.all fun needed =>
      needed.all fun capability => task.capabilities.any fun owned => owned.contains capability

def RoutingPolicy.matched (policy : RoutingPolicy) (task : TaskProfile) : MatchedRule × Action :=
  match policy.rules.zipIdx.find? fun entry => entry.1.condition.matches task with
  | some (rule, index) => (.rule index, rule.action)
  | none => (.default, policy.default)

def isLocalOnly (task : TaskProfile) : Bool := task.privacy.getD .localOnly = .localOnly

def RoutingPolicy.decide (policy : RoutingPolicy) (task : TaskProfile) : RouteDecision where
  tiers := ((policy.matched task).2.tiers.getD [.local]).filter fun tier =>
    !isLocalOnly task || tier ≠ .remote
  failClosed := isLocalOnly task || (policy.matched task).2.failClosed.getD false
  capability := (policy.matched task).2.capability
  load := (policy.matched task).2.load
  matchedRule := (policy.matched task).1

variable {F : Type}

structure PolicyCards (F : Type) where
  cards : List (ComponentCard F)
  route : RouteDecision

/-- The cards of the tiers that the policy allows, in their order. -/
def policyCards (cards : List (ComponentCard F)) (policy : RoutingPolicy)
    (profile : ParsedProfile) : PolicyCards F where
  cards := cards.filter fun card => (policy.decide profile.task).tiers.contains card.provider.tier
  route := policy.decide profile.task

end Policy

end Chat
