import HashBoard.Work.Basic
import Mathlib.Data.List.Perm.Subperm

/-!
# The log of a sink

What the events of a sink say: which items came back, and that no nonce was submitted for an item
that had come back before.
-/

namespace HashBoard

/-! ### Items that came back -/

def SinkEvent.completed? : SinkEvent → Option Work
  | completed work _ => some work
  | submitted _ _ _ _ => none

def completedIn (events : List SinkEvent) : List Work := events.filterMap SinkEvent.completed?

/-- No nonce was submitted for an item that had come back: at each submission there was an item
among the accepted ones beside those that had come back. -/
def SubmittedInTime (accepted : List Work) (events : List SinkEvent) : Prop :=
  ∀ later work chip nonce valid earlier,
    events = later ++ .submitted work chip nonce valid :: earlier →
      (work :: completedIn earlier).Subperm accepted

/-- From one sink to another nothing happened but that items came back. -/
def Sink.Returned (sink after : Sink) : Prop :=
  ∃ back, (∀ event ∈ back, event.completed?.isSome = true) ∧ after.events = back ++ sink.events

namespace Sink.Returned

variable {sink middle after : Sink}

theorem refl (sink : Sink) : Returned sink sink := by
  refine ⟨[], ?_, rfl⟩
  intro event hevent
  cases hevent

theorem complete (h : Returned sink after) (work : Work) (status : WorkOutcome) :
    Returned sink (after.complete work status) := by
  obtain ⟨back, hback, heq⟩ := h
  refine ⟨.completed work status :: back, ?_, congrArg (_ :: ·) heq⟩
  intro event hevent
  rcases List.mem_cons.1 hevent with rfl | hevent
  · rfl
  · exact hback event hevent

theorem completeAll (h : Returned sink after) (works : List Work) (status : WorkOutcome) :
    Returned sink (after.completeAll works status) := by
  induction works generalizing after with
  | nil => exact h
  | cons work works ih => exact ih (h.complete work status)

theorem mem_of_submitted {work : Work} {chip : UInt8} {nonce : UInt32} {valid : Bool}
    (h : Returned sink after) (hmem : .submitted work chip nonce valid ∈ after.events) :
    .submitted work chip nonce valid ∈ sink.events := by
  obtain ⟨back, hback, heq⟩ := h
  rw [heq] at hmem
  rcases List.mem_append.1 hmem with hmem | hmem
  · cases hback _ hmem
  · exact hmem

end Sink.Returned

theorem completedIn_completeAll (sink : Sink) (works : List Work) (status : WorkOutcome) :
    completedIn (sink.completeAll works status).events = works.reverse ++ completedIn sink.events := by
  rw [Sink.completeAll_events, completedIn, List.filterMap_append, List.filterMap_reverse,
    List.filterMap_map]
  congr 2
  exact List.filterMap_some

namespace SubmittedInTime

variable {accepted accepted' : List Work} {events : List SinkEvent}

theorem nil (accepted : List Work) : SubmittedInTime accepted [] := by
  intro later work chip nonce valid earlier h
  exact absurd h.symm (List.append_ne_nil_of_right_ne_nil _ (List.cons_ne_nil _ _))

theorem mono (h : SubmittedInTime accepted events) (hle : accepted.Subperm accepted') :
    SubmittedInTime accepted' events :=
  fun later work chip nonce valid earlier heq =>
    (h later work chip nonce valid earlier heq).trans hle

theorem completed (h : SubmittedInTime accepted events) (work : Work) (status : WorkOutcome) :
    SubmittedInTime accepted (.completed work status :: events) := by
  intro later work' chip nonce valid earlier heq
  cases later with
  | nil => cases heq
  | cons event later =>
    obtain ⟨_, hrest⟩ := List.cons.inj heq
    exact h later work' chip nonce valid earlier hrest

theorem submitted (h : SubmittedInTime accepted events) {work : Work}
    (hwork : (work :: completedIn events).Subperm accepted) (chip : UInt8) (nonce : UInt32)
    (valid : Bool) : SubmittedInTime accepted (.submitted work chip nonce valid :: events) := by
  intro later work' chip' nonce' valid' earlier heq
  cases later with
  | nil =>
    cases heq
    exact hwork
  | cons event later =>
    obtain ⟨_, hrest⟩ := List.cons.inj heq
    exact h later work' chip' nonce' valid' earlier hrest

theorem returned {sink after : Sink} (h : SubmittedInTime accepted sink.events)
    (hafter : sink.Returned after) : SubmittedInTime accepted after.events := by
  obtain ⟨back, hback, heq⟩ := hafter
  rw [heq]
  clear heq
  induction back with
  | nil => exact h
  | cons event back ih =>
    have hrest := ih fun e he => hback e (List.mem_cons_of_mem _ he)
    cases event with
    | completed work status => exact hrest.completed work status
    | submitted work chip nonce valid => cases hback _ (List.mem_cons_self ..)

end SubmittedInTime

end HashBoard
