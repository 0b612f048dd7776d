/-
The stream table: how objects are found and updated in it, and that a pending
abort always carries a terminal code.
-/
import Mathlib.Data.List.Nodup
import Mathlib.Data.List.Forall2
import Mathlib.Logic.Relation
import Yume.Session.Roles

namespace Yume.Session

open Yume.Lib List

namespace Engine

variable {e : Engine} {id : Nat} {stream : Stream}

def ids (e : Engine) : List Nat := e.streams.map Stream.id

theorem modify_ids {update : Stream → Stream} (hid : ∀ stream, (update stream).id = stream.id) :
    (e.modify id update).ids = e.ids := by
  simp only [ids, modify, map_map]
  refine map_congr_left fun stream _ => ?_
  simp only [Function.comp_apply]
  split
  · exact hid stream
  · rfl

theorem mem_modify {update : Stream → Stream} {stream' : Stream} :
    stream' ∈ (e.modify id update).streams ↔
      (∃ stream ∈ e.streams, stream.id = id ∧ stream' = update stream) ∨
      (stream' ∈ e.streams ∧ stream'.id ≠ id) := by
  simp only [modify, mem_map]
  constructor
  · rintro ⟨stream, hmem, rfl⟩
    split
    · exact .inl ⟨stream, hmem, ‹_›, rfl⟩
    · exact .inr ⟨hmem, ‹_›⟩
  rintro (⟨stream, hmem, hid, rfl⟩ | ⟨hmem, hid⟩)
  · exact ⟨stream, hmem, by simp [hid]⟩
  · exact ⟨stream', hmem, by simp [hid]⟩

theorem object_some (h : e.object id = some stream) : stream ∈ e.streams ∧ stream.id = id :=
  ⟨mem_of_find?_eq_some h, by simpa using find?_some h⟩

theorem find_some (h : e.find id = some stream) :
    stream ∈ e.streams ∧ stream.id = id ∧ stream.present = true := by
  have := find?_some h
  simp only [Bool.and_eq_true, beq_iff_eq] at this
  exact ⟨mem_of_find?_eq_some h, this⟩

theorem findOpen_some (h : e.findOpen id = some stream) :
    e.find id = some stream ∧ stream.closed = false := by
  rw [findOpen, Option.filter_eq_some_iff] at h
  exact ⟨h.1, by simpa using h.2⟩

/-- With unique names, an object of this name is the one that was found. -/
theorem eq_of_id {other : Stream} (hunique : e.ids.Nodup)
    (h : stream ∈ e.streams) (h' : other ∈ e.streams)
    (hid : other.id = stream.id) : other = stream :=
  inj_on_of_nodup_map hunique h' h hid

theorem find_eq_some (hunique : e.ids.Nodup) (h : stream ∈ e.streams)
    (hpresent : stream.present = true) : e.find stream.id = some stream := by
  cases hfind : e.find stream.id with
  | none =>
    have := find?_eq_none.mp hfind stream h
    simp [hpresent] at this
  | some =>
    obtain ⟨hmem, hid, _⟩ := find_some hfind
    exact congrArg some (eq_of_id hunique h hmem hid)

theorem findOpen_eq_some (hunique : e.ids.Nodup) (h : stream ∈ e.streams)
    (hpresent : stream.present = true) (hopen : stream.closed = false) :
    e.findOpen stream.id = some stream := by
  rw [findOpen, find_eq_some hunique h hpresent]
  simp [hopen]

end Engine

/-- An abort carries a terminal code. -/
def Call.Coded : Call → Prop
  | .abortStream _ code _ => code.isTerminal = true
  | _ => True

theorem Owner.resume_coded (owner : Owner) (request : Request)
    (status : Status) (admission : QueueAdmission) :
    ∀ call ∈ owner.resume request status admission, call.Coded := by
  cases owner <;> simp only [Owner.resume] <;> (repeat' split) <;>
    simp [Call.Coded, failCall, receiveFailed, CloseCode.isTerminal]

theorem dispatch_coded (state : SessionState) (record : Record) :
    ∀ call ∈ Engine.dispatch state record, call.Coded := by
  cases record <;> simp only [Engine.dispatch] <;> split <;>
    simp [Call.Coded, failCall, receiveFailed]

theorem Effect.coded {e e' : Engine} {choice : Choice} {call : Call}
    {made : List Call} (h : Effect e choice call e' made) :
    ∀ call' ∈ made, call'.Coded := by
  cases h with
  | enqueueRefused | admitLeaves | deferLeaves | deferPushLeaves | deferPushes | tokenLeaves
  | tokenUnadmitted | tokenExhausted | publishStopped | publishes | tokenFails | bareLost =>
    exact Owner.resume_coded _ _ _ _
  | refusesPeer _ _ _ hcode | insertsRefused _ _ hcode => simpa [Call.Coded] using hcode
  | openSucceeds => exact dispatch_coded _ _
  | _ =>
    first
      | exact forall_mem_nil _
      | exact forall_mem_singleton.mpr trivial
      | simp [Call.Coded, failCall, receiveFailed, CloseCode.isTerminal]

/-- Every pending abort carries a terminal code. -/
theorem Endpoint.Run.coded {config : Config} {guard : Guard}
    {endpoint : Endpoint} (h : Endpoint.Run config guard endpoint) :
    ∀ call ∈ endpoint.frames, call.Coded := by
  refine Run.invariant (P := fun _ frames => ∀ call ∈ frames, call.Coded)
    (K := fun _ _ => True) (fun _ _ => trivial) ?_ ?_ h
  · simp [Endpoint.initial, Endpoint.frames, Call.Coded]
  intro e e' choice pre used made post _ _ _ _ hinv hmove _
  have hmade : ∀ call ∈ made, call.Coded := by
    cases hmove with
    | run heffect => exact heffect.coded
    | call hcallable =>
      rw [forall_mem_singleton]
      cases ‹Call› <;> trivial
    | pump => simp
    | sent | sendFails | release | deliver => simp [Call.Coded, failCall]
  simp only [forall_mem_append] at hinv ⊢
  exact ⟨hinv.1, hmade, hinv.2.2⟩

end Yume.Session
