/-
Stream IDs are used once: local IDs in increasing order, peer IDs above the
last one seen.  The configuration never changes.
-/
import Yume.Session.StreamOps

namespace Yume.Session

open Yume.Lib Engine Call List

/-- The stream that a section is about to insert for the peer. -/
def Call.inserting : Call → List Nat
  | .insertPeerStream id _ _ => [id]
  | _ => []

/-- The counters that stream IDs are drawn from. -/
structure NameView where
  next : Nat
  exhausted : Bool
  lastPeer : Nat

def Engine.nameView (e : Engine) : NameView where
  next := e.nextLocalStreamId
  exhausted := e.localStreamIdsExhausted
  lastPeer := e.lastPeerStreamId

/-- What a section does to the stream IDs. -/
inductive NameChange (e : Engine) (call : Call) (e' : Engine)
    (made : List Call) : Prop where
  | quiet : e'.ids = e.ids → e'.nameView = e.nameView →
    made.flatMap inserting = [] → NameChange e call e' made
  | opened {request} : call = .asyncOpen request →
    e.openRefusal request = none → e'.ids = e.ids ++ [e.nextLocalStreamId] →
    e'.nameView = e.takeStreamId.nameView →
    made.flatMap inserting = [] → NameChange e call e' made
  | claimed {id request} : call = .processOpen id request →
    e.openIdFailure id = none → e'.ids = e.ids →
    e'.nameView = { e.nameView with lastPeer := id } →
    (∀ other ∈ made.flatMap inserting, other = id) →
    NameChange e call e' made
  | inserted {id request service} : call = .insertPeerStream id request service →
    e'.ids = e.ids ++ [id] → e'.nameView = e.nameView →
    made.flatMap inserting = [] → NameChange e call e' made

section Step

variable {e e' : Engine} {choice : Choice} {call : Call} {made : List Call}

theorem TableStep.ids_eq {new : List Stream} (h : TableStep e call new)
    (hopen : ∀ request, call ≠ .asyncOpen request)
    (hinsert : ∀ id request service, call ≠ .insertPeerStream id request service) :
    new.map Stream.id = e.ids := by
  obtain ⟨kept, added, hkept, rfl, hadded⟩ := h
  cases hadded with
  | none => rw [append_nil]; exact hkept.ids
  | opened => exact absurd rfl (hopen _)
  | inserted => exact absurd rfl (hinsert _ _ _)

/-- Only `process_open` leaves an insertion behind. -/
theorem Effect.inserting_nil (h : Effect e choice call e' made)
    (hcall : call.name ≠ .processOpen) : made.flatMap inserting = [] :=
  h.flatMap_nil fun left hleft => by
    cases left <;> first
      | rfl
      | (cases call <;> first | exact absurd rfl hcall | cases hleft)

/-- Every section leaves the stream IDs alone, or uses one. -/
theorem Effect.names (h : Effect e choice call e' made) (hunique : e.ids.Nodup)
    (hcoded : call.Coded) : NameChange e call e' made := by
  have htable := h.table hunique hcoded
  have hnone := h.inserting_nil
  cases h with
  | idle hc | receiveFailing hc => exact .quiet rfl rfl rfl
  | opens hrefusal =>
    refine .opened rfl hrefusal ?_ rfl rfl
    simp [ids, insertStream, takeStreamId, localStream]
  | openBoundFails hfailure =>
    exact .claimed rfl hfailure rfl rfl
      (by simp [receiveFailed, failCall, inserting])
  | opensPeer hfailure =>
    exact .claimed rfl hfailure rfl rfl (by simp [inserting])
  | openRefused | insertStopped => exact .quiet rfl rfl rfl
  | @inserts id request service | @insertsRefused id request service =>
    refine .inserted rfl ?_ rfl (hnone (by rintro ⟨⟩))
    show ((e.insertStream (e.peerStream id request service _)).modify id
      (Stream.noteReceived (.open id request))).ids = _
    rw [modify_ids]
    · simp [ids, insertStream, peerStream]
    · exact fun _ => rfl
  | _ => exact .quiet (htable.ids_eq (by simp) (by simp)) rfl (hnone (by rintro ⟨⟩))

end Step

/-- Every stream ID is used once, on the side that owns it. -/
structure NameInv (e : Engine) (frames : List Call) : Prop where
  unique : e.ids.Nodup
  nonzero : ∀ id ∈ e.ids, id ≠ 0
  mine : ∀ id ∈ e.ids, e.config.role.owns id = true →
    id < e.nextLocalStreamId ∨ (e.localStreamIdsExhausted = true ∧ id ≤ e.nextLocalStreamId)
  theirs : ∀ id ∈ e.ids, e.config.role.owns id = false → id ≤ e.lastPeerStreamId
  next : e.config.role.owns e.nextLocalStreamId = true ∧ e.nextLocalStreamId ≠ 0
  claim : ∀ id ∈ frames.flatMap inserting, id = e.lastPeerStreamId ∧
    id ∉ e.ids ∧ e.config.role.owns id = false ∧ id ≠ 0

theorem openRefusal_none {e : Engine} {request : OpenRequest} (h : e.openRefusal request = none) :
    e.state = .active ∧ e.localStreamIdsExhausted = false := by
  unfold openRefusal at h
  split_ifs at h with _ hstate hfull
  simp only [not_not, not_or, Bool.not_eq_true] at hstate hfull
  exact ⟨hstate, hfull.1⟩

theorem openIdFailure_none {e : Engine} {id : Nat} (h : e.openIdFailure id = none) :
    id ≠ 0 ∧ e.config.role.owns id = false ∧ e.lastPeerStreamId < id := by
  unfold openIdFailure at h
  split_ifs at h with hid hstate hlast
  simp only [isApplicationId, Bool.and_eq_true, decide_eq_true_eq, not_or,
    not_not, Bool.not_eq_true, Nat.not_le] at hid hlast
  exact ⟨hid.1.1, hid.2, hlast⟩

theorem owns_step {role : EndpointRole} {id : Nat} (h : role.owns id = true) :
    role.owns (id + 2) = true := by
  cases role <;> simp only [EndpointRole.owns, beq_iff_eq] at h ⊢ <;> omega

section Inv

variable {e e' : Engine} {choice : Choice} {call : Call} {pre used made post : List Call}

/-- Beside the received record's own section nothing does what only such a section
can. -/
theorem RoleInv.beside_receive {α : Type} {f : Call → List α}
    (h : RoleInv e (pre ++ ([call] ++ post))) (hcall : call.receiveRole = 1)
    (hf : ∀ other : Call, other.receiveRole = 0 → f other = []) :
    pre.flatMap f = [] ∧ post.flatMap f = [] := by
  have hone := h.receive
  simp only [weigh_append, weigh_cons, weigh_nil, hcall] at hone
  have : flag e.receiveInProgress ≤ 1 := by cases e.receiveInProgress <;> decide
  constructor <;> refine flatMap_eq_nil_iff.mpr fun other hother => hf other ?_ <;>
    have := le_weigh_of_mem (f := receiveRole) hother <;> omega

theorem Call.inserting_eq_nil {other : Call} (h : other.receiveRole = 0) :
    other.inserting = [] := by
  cases other <;> first | rfl | cases h

theorem NameInv.of_view (h : NameInv e (pre ++ (used ++ post)))
    (hids : e'.ids = e.ids) (hview : e'.nameView = e.nameView)
    (hconfig : e'.config = e.config)
    (hmade : made.flatMap inserting = []) :
    NameInv e' (pre ++ (made ++ post)) := by
  simp only [nameView, NameView.mk.injEq] at hview
  obtain ⟨hnext, hexhausted, hlast⟩ := hview
  obtain ⟨h1, h2, h3, h4, h5, h6⟩ := h
  constructor <;> simp only [hids, hnext, hexhausted, hlast, hconfig] <;> try assumption
  intro id hid
  refine h6 id ?_
  simp only [flatMap_append, mem_append, hmade] at hid ⊢
  tauto

theorem forall_mem_concat {ids : List Nat} {id : Nat} {P : Nat → Prop}
    (hold : ∀ other ∈ ids, P other) (hnew : P id) : ∀ other ∈ ids ++ [id], P other :=
  forall_mem_append.mpr ⟨hold, forall_mem_singleton.mpr hnew⟩

section

variable (h : NameInv e (pre ++ (used ++ post)))
include h

theorem NameInv.of_opened (hids : e'.ids = e.ids ++ [e.nextLocalStreamId])
    (hview : e'.nameView = e.takeStreamId.nameView)
    (hconfig : e'.config = e.config)
    (hmade : made.flatMap inserting = [])
    (hfree : e.localStreamIdsExhausted = false) :
    NameInv e' (pre ++ (made ++ post)) := by
  simp only [nameView, takeStreamId, NameView.mk.injEq, hfree, Bool.false_or] at hview
  obtain ⟨hnext, hexhausted, hlast⟩ := hview
  obtain ⟨h1, h2, h3, h4, h5, h6⟩ := h
  have hfresh : e.nextLocalStreamId ∉ e.ids := fun hmem => by
    have := h3 _ hmem h5.1
    simp [hfree] at this
  -- the new counter lies above the ID just used, unless that was the last one
  have hstep : e.nextLocalStreamId < e'.nextLocalStreamId ∨
      (e'.localStreamIdsExhausted = true ∧ e.nextLocalStreamId ≤ e'.nextLocalStreamId) := by
    rw [hnext, hexhausted]
    split
    · exact .inr ⟨‹_›, by omega⟩
    · exact .inl (by omega)
  constructor
  · rw [hids]
    exact concat_eq_append ▸ Nodup.concat hfresh h1
  · rw [hids]
    exact forall_mem_concat h2 h5.2
  · rw [hids, hconfig]
    refine forall_mem_concat (fun id hid howns => ?_) fun _ => hstep
    have := h3 id hid howns
    simp only [hfree, Bool.false_eq_true, false_and, or_false] at this
    omega
  · rw [hids, hconfig, hlast]
    exact forall_mem_concat h4 fun howns => by simp [h5.1] at howns
  · rw [hnext, hconfig]
    split
    · exact h5
    · exact ⟨owns_step h5.1, by omega⟩
  rw [hlast, hids, hconfig]
  intro id hid
  have hclaim := h6 id (by
    simp only [flatMap_append, mem_append, hmade] at hid ⊢
    tauto)
  refine ⟨hclaim.1, fun hmem => ?_, hclaim.2.2⟩
  rcases mem_append.mp hmem with hmem | hmem
  · exact hclaim.2.1 hmem
  rw [mem_singleton.mp hmem, h5.1] at hclaim
  exact absurd hclaim.2.2.1 (by simp)

theorem NameInv.of_claimed {id : Nat}
    (hfree : id ≠ 0 ∧ e.config.role.owns id = false ∧ e.lastPeerStreamId < id)
    (hids : e'.ids = e.ids)
    (hview : e'.nameView = { e.nameView with lastPeer := id })
    (hconfig : e'.config = e.config)
    (hmade : ∀ other ∈ (pre ++ (made ++ post)).flatMap inserting, other = id) :
    NameInv e' (pre ++ (made ++ post)) := by
  simp only [nameView, NameView.mk.injEq] at hview
  obtain ⟨hnext, hexhausted, hlast⟩ := hview
  obtain ⟨h1, h2, h3, h4, h5, h6⟩ := h
  constructor <;> simp only [hids, hnext, hexhausted, hlast, hconfig] <;> try assumption
  · intro other hmem howns
    have := h4 other hmem howns
    omega
  intro other hother
  rw [hmade other hother]
  refine ⟨rfl, fun hmem => ?_, hfree.2.1, hfree.1⟩
  have := h4 id hmem hfree.2.1
  omega

theorem NameInv.of_inserted {id : Nat}
    (hclaim : id = e.lastPeerStreamId ∧ id ∉ e.ids ∧ e.config.role.owns id = false ∧ id ≠ 0)
    (hids : e'.ids = e.ids ++ [id]) (hview : e'.nameView = e.nameView)
    (hconfig : e'.config = e.config)
    (hmade : (pre ++ (made ++ post)).flatMap inserting = []) :
    NameInv e' (pre ++ (made ++ post)) := by
  simp only [nameView, NameView.mk.injEq] at hview
  obtain ⟨hnext, hexhausted, hlast⟩ := hview
  obtain ⟨h1, h2, h3, h4, h5, -⟩ := h
  constructor <;> simp only [hids, hnext, hexhausted, hlast, hconfig]
  · exact concat_eq_append ▸ Nodup.concat hclaim.2.1 h1
  · exact forall_mem_concat h2 hclaim.2.2.2
  · exact forall_mem_concat h3 fun howns => by simp [hclaim.2.2.1] at howns
  · exact forall_mem_concat h4 fun _ => Nat.le_of_eq hclaim.1
  · exact h5
  · simp [hmade]

end

theorem Effect.names_kept (heffect : Effect e choice call e' made)
    (hcoded : call.Coded) (hroles : RoleInv e (pre ++ ([call] ++ post)))
    (h : NameInv e (pre ++ ([call] ++ post))) :
    NameInv e' (pre ++ (made ++ post)) := by
  have hconfig := heffect.fixed.config
  cases heffect.names h.unique hcoded with
  | quiet hids hview hmade => exact h.of_view hids hview hconfig hmade
  | opened hcall hrefusal hids hview hmade =>
    exact h.of_opened hids hview hconfig hmade (openRefusal_none hrefusal).2
  | claimed hcall hfailure hids hview hmade =>
    subst hcall
    obtain ⟨hpre, hpost⟩ := hroles.beside_receive rfl fun _ => inserting_eq_nil
    refine h.of_claimed (openIdFailure_none hfailure) hids hview hconfig ?_
    simpa [flatMap_append, hpre, hpost] using hmade
  | inserted hcall hids hview hmade =>
    subst hcall
    obtain ⟨hpre, hpost⟩ := hroles.beside_receive rfl fun _ => inserting_eq_nil
    refine h.of_inserted (h.claim _ (by simp [inserting])) hids hview hconfig ?_
    simp [flatMap_append, hpre, hpost, hmade]

theorem Move.names_kept {emitted taken : Option Wire}
    (hmove : Move e choice used e' made emitted taken)
    (hcoded : ∀ call ∈ used, call.Coded)
    (hroles : RoleInv e (pre ++ (used ++ post)))
    (h : NameInv e (pre ++ (used ++ post))) :
    NameInv e' (pre ++ (made ++ post)) := by
  cases hmove with
  | run heffect =>
    exact heffect.names_kept (hcoded _ mem_cons_self) hroles h
  | call hcallable =>
    have hneutral := callable_neutral hcallable
    refine h.of_view rfl rfl rfl ?_
    rw [flatMap_singleton]
    cases ‹Call› <;> first | rfl | cases hneutral
  | pump | release | deliver => exact h.of_view rfl rfl rfl rfl
  | sent | sendFails => exact h.of_view (afterSend_ids h.unique) rfl rfl rfl

end Inv

theorem Endpoint.Run.names {config : Config} {guard : Guard}
    {endpoint : Endpoint} (h : Endpoint.Run config guard endpoint) :
    NameInv endpoint.engine endpoint.frames := by
  refine Run.invariant (K := fun e frames => RoleInv e frames ∧ ∀ call ∈ frames, call.Coded)
    (fun _ hrun => ⟨hrun.roles, hrun.coded⟩) ?_
    (fun hknown _ hinv hmove _ => hmove.names_kept (fun call hcall =>
      hknown.2 call (by simp [hcall])) hknown.1 hinv) h
  constructor <;> simp [Endpoint.initial, ids, Endpoint.frames, inserting]
  cases config.role <;> decide

theorem Move.config_eq {e e' : Engine} {choice : Choice}
    {used made : List Call} {emitted taken : Option Wire}
    (h : Move e choice used e' made emitted taken) : e'.config = e.config := by
  cases h with
  | run heffect => exact heffect.fixed.config
  | _ => rfl

theorem Endpoint.Run.config_eq {config : Config} {guard : Guard}
    {endpoint : Endpoint} (h : Endpoint.Run config guard endpoint) :
    endpoint.engine.config = config :=
  Run.invariant (P := fun e _ => e.config = config) (K := fun _ _ => True) (fun _ _ => trivial) rfl
    (fun _ _ hconfig hmove _ => hmove.config_eq.trans hconfig) h

end Yume.Session
