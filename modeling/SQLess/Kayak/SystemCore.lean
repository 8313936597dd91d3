import SQLess.Kayak.LeaderCore
import SQLess.Kayak.FollowerCore
import Mathlib.Logic.Relation

/-!
One leader with its followers.  Messages may be lost, repeated and reordered: any log that the
leader has sent may reach any follower at any time, any number of times.
-/

namespace SQLess.Kayak

open Lib

variable {Req Data : Type}

structure System (Req Data : Type) where
  leader : Leader Req Data
  followers : NodeID → Follower Req Data

inductive Action (Req : Type) where
  | leader (action : LeaderAction Req)
  | follower (node : NodeID) (action : FollowerAction)

namespace System

def init : System Req Data := ⟨⟨.init, []⟩, fun _ => ⟨.init, []⟩⟩

def setFollower (s : System Req Data) (node : NodeID) (f : Follower Req Data) : System Req Data :=
  { s with followers := fun other => if other = node then f else s.followers other }

def act (h : Handler Req Data) (config : Config) (s : System Req Data) :
    Action Req → Option (System Req Data)
  | .leader action =>
    (s.leader.act h config (fun node => (s.followers node).shared.accepted) action).map
      fun l => { s with leader := l }
  | .follower node action =>
    if node ∈ config.followers then
      ((s.followers node).act h s.leader.shared.sent s.leader.shared.rt.wal action).map
        (s.setFollower node)
    else none

end System

/-- What is assumed of a run: whether nodes end and start again, that they do not do so
between writing a commit log and executing it, and that no two calls store the same prepare
log. -/
structure Mode where
  crashes : Bool
  careful : Bool
  exclusive : Bool

def Allowed (mode : Mode) (s : System Req Data) : Action Req → Bool
  | .leader .restart => mode.crashes && !(mode.careful && s.leader.shared.executing)
  | .follower node .restart =>
    mode.crashes && !(mode.careful && (s.followers node).shared.executing)
  | .follower node (.task i _) => !(mode.exclusive && (s.followers node).overwrites i)
  | _ => true

def Step (h : Handler Req Data) (config : Config) (mode : Mode) (s s' : System Req Data) : Prop :=
  ∃ action, Allowed mode s action = true ∧ s.act h config action = some s'

abbrev Run (h : Handler Req Data) (config : Config) (mode : Mode) :
    System Req Data → System Req Data → Prop :=
  Relation.ReflTransGen (Step h config mode)

def System.perform (h : Handler Req Data) (config : Config) (mode : Mode) :
    List (Action Req) → System Req Data → Option (System Req Data)
  | [], s => some s
  | action :: rest, s =>
    if Allowed mode s action then
      match s.act h config action with
      | none => none
      | some s' => perform h config mode rest s'
    else none

end SQLess.Kayak
