/-
All that can happen to a region that pools share.

The pools are not alone with their region.  It can also be asked directly, for memory, for
checkpoints and rollbacks of its own and to be closed, and it can be given up by its last
holder.  An occasion is any of these, or an errand of a pool.  `Happens` tells how an occasion
can go in the terms of the relations for regions and pools, so what is proved of it afterwards
opens no operation.
-/
import Mathlib
import PageArena.Proofs.Allocator.Sharing
import PageArena.Proofs.Region.Release

namespace PageArena

open OsCall (Record)

namespace Commons

/-- What can be done with a region and its pools. -/
inductive Deed where
  | ask (request : Region.Request)
  | errand (pool : Nat) (errand : Errand)
  /-- The region is dropped. -/
  | discard
  deriving DecidableEq, Repr

/-- One deed, and the machine that it meets. -/
structure Occasion where
  machine : Machine
  deed : Deed

/-- The time of an occasion. -/
def Occasion.clock (o : Occasion) : Nat := o.machine.kernel.clock

/-- The world that the end of the region leaves. -/
def discarded (c : Commons) (machine : Machine) : World Region :=
  (Region.discard.run { machine with self := c.region }).2

/-- The region and its pools after an occasion. -/
def next (c : Commons) (o : Occasion) : Commons :=
  match o.deed with
  | .ask request => { c with region := c.region.after ⟨o.machine, request⟩ }
  | .errand p errand => c.after ⟨o.machine, p, errand⟩
  | .discard => { c with region := (c.discarded o.machine).self }

/-- The calls to the operating system that are made on an occasion. -/
def made (c : Commons) (o : Occasion) : List Record :=
  match o.deed with
  | .ask request => c.region.calls ⟨o.machine, request⟩
  | .errand p errand => c.calls ⟨o.machine, p, errand⟩
  | .discard => (c.discarded o.machine).kernel.calls.drop o.machine.kernel.calls.length

/-- The region and its pools after a run. -/
def through (c : Commons) (os : List Occasion) : Commons := os.foldl next c

/-- The handle that is used on an occasion: that of a rollback, or that of a pool that has
begun and is ended. -/
def asked (c : Commons) (o : Occasion) : Option Handle :=
  match o.deed with
  | .ask (.rollback handle) => some handle
  | .errand p .close | .errand p .drop => (c.pools p).handle?
  | _ => none

variable {c : Commons}

/-- How an occasion can go for the region. -/
inductive Happens (c : Commons) (clock : Nat) : Deed → Region → List Record → Prop
  | ask {request : Region.Request} {answer : Except ArenaError Region.Reply} {r' : Region}
      {made : List Record} (h : Region.Meets c.region clock request answer r' made) :
      Happens c clock (.ask request) r' made
  | errand {p : Nat} {errand : Errand} {answer : Except ArenaError (Option Span)}
      {t' : Tenancy} {made : List Record}
      (h : Goes ⟨c.pools p, c.region⟩ clock errand answer t' made) :
      Happens c clock (.errand p errand) t'.region made
  | discard {r' : Region} {made : List Record} (h : Region.Discards c.region r' made) :
      Happens c clock .discard r' made

theorem next_happens (ok : Region.Sound c.region) (o : Occasion) :
    Happens c o.clock o.deed (c.next o).region (c.made o) := by
  obtain ⟨machine, deed⟩ := o
  cases deed with
  | ask request => exact .ask (Region.meet_meets ok ⟨machine, request⟩)
  | errand p errand => exact .errand (meet_goes ok ⟨machine, p, errand⟩)
  | discard =>
      rcases h : Region.discard.run { machine with self := c.region } with ⟨answer, w'⟩
      obtain ⟨r', made, discards, leads⟩ := Region.discard_discards h
      have hmade := Region.drop_calls leads
      unfold next Commons.made discarded
      simp only [h]
      rw [show w'.kernel.calls.drop machine.kernel.calls.length = made from hmade, leads.self]
      exact .discard discards

theorem Happens.continues {clock : Nat} {deed : Deed} {r' : Region} {made : List Record}
    (ok : Region.Sound c.region) (h : Happens c clock deed r' made) :
    Region.Continues c.region r' := by
  cases h with
  | ask h => exact h.continues ok
  | errand h =>
      cases h with
      | allocate h => exact h.continues
      | close h => exact h.continues ok
      | drop h => exact h.continues ok
  | discard h =>
      cases h with
      | unheld h => exact .refl c.region
      | released held => exact Region.continues_abandoned c.region

theorem next_continues (ok : Region.Sound c.region) (o : Occasion) :
    Region.Continues c.region (c.next o).region := (next_happens ok o).continues ok

theorem through_continues (ok : Region.Sound c.region) (os : List Occasion) :
    Region.Continues c.region (c.through os).region := by
  induction os generalizing c with
  | nil => exact .refl c.region
  | cons o os ih =>
      have first := next_continues ok o
      exact first.trans (ih (first.sound ok))

theorem through_concat (c : Commons) (os : List Occasion) (o : Occasion) :
    c.through (os ++ [o]) = (c.through os).next o := List.foldl_concat ..

end Commons

end PageArena
