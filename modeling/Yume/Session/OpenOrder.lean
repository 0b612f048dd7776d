/-
The OPEN records of one session take their tokens in the order of their stream
IDs, as long as none of them overtakes a smaller one that still waits.
-/
import Yume.Session.Arrivals
import Yume.Session.Tokens
import Yume.Session.Waiting

namespace Yume.Session

open Yume.Lib Engine List

/-- The streams whose OPEN still waits for its token. -/
def waitingOpens (engine : Engine) (calls : List Call) : List Nat :=
  (waiting engine calls).flatMap fun deferred => deferred.record.openIds

/-- An OPEN takes its token only while every other OPEN that waits has a larger
stream ID. -/
def opensInOrder : Guard := fun engine _ call others =>
  match call with
  | .takeToken request owner => ∀ id ∈ request.record.openIds,
    (∀ other ∈ waitingOpens engine others, id < other) ∧
      ∀ deferred ∈ owner.rest, ∀ other ∈ deferred.record.openIds, id < other
  | _ => True

instance (engine : Engine) (choice : Choice) (call : Call)
    (others : List Call) :
    Decidable (opensInOrder engine choice call others) := by
  unfold opensInOrder
  split <;> infer_instance

theorem mem_waitingOpens {e : Engine} {calls : List Call} {id : Nat} :
    id ∈ waitingOpens e calls ↔ ∃ deferred ∈ waiting e calls, id ∈ deferred.record.openIds :=
  mem_flatMap

/-- What waits after a section waits beside it or because of it. -/
theorem waitingOpens_split {e e' : Engine} {pre made post : List Call}
    {id : Nat} (used : List Call) (h : id ∈ waitingOpens e' (pre ++ (made ++ post))) :
    (id ∈ waitingOpens e (pre ++ (used ++ post)) ∧
      id ∈ waitingOpens e (pre ++ post)) ∨ id ∈ waitingOpens e' made := by
  simp only [waitingOpens, waiting, flatMap_append, mem_append] at h ⊢
  tauto

theorem waitingOpens_used {e : Engine} {pre used post : List Call} {id : Nat}
    (h : id ∈ waitingOpens e used) : id ∈ waitingOpens e (pre ++ (used ++ post)) := by
  simp only [waitingOpens, waiting, flatMap_append, mem_append] at h ⊢
  tauto

section Step

variable {e e' : Engine} {choice : Choice} {call : Call}
  {pre used made post : List Call} {r : Request} {o : Owner}

/-- What waits for a token after another record took one. -/
theorem Effect.taken_deferred (h : Effect e choice (.takeToken r o) e' made) :
    e'.queue.deferred = e.queue.deferred := by
  cases h <;> rfl

/-- An OPEN that waits was waiting, or `async_open` has just allocated it. -/
theorem Effect.open_carried (h : Effect e choice call e' made)
    (htyped : call.Typed) (hlive : e'.terminal = false) {id : Nat}
    (hid : id ∈ waitingOpens e' made) :
    id ∈ waitingOpens e [call] ∨
      (id = e.nextLocalStreamId ∧ e.localStreamIdsExhausted = false ∧ e'.ids = e.ids ++ [id]) := by
  obtain ⟨deferred, hmem, hopen⟩ := mem_waitingOpens.mp hid
  rcases h.waiting_carried htyped hlive deferred hmem with
    ⟨old, hold, hsame⟩ | hcreated
  · exact .inl (mem_waitingOpens.mpr ⟨old, hold, hsame.record ▸ hopen⟩)
  cases hcreated with
  | @control =>
    dsimp only [controlRequest, Request.deferred, controlRecord] at hopen
    split at hopen
    · split at hopen <;> cases hopen
    · cases hopen
  | «open» hrefusal =>
    obtain rfl := mem_singleton.mp hopen
    cases h with
    | idle hc => cases hc
    | receiveFailing hc => cases hc
    | openRefused hrefused => exact absurd hrefusal hrefused
    | opens =>
      refine .inr ⟨rfl, (openRefusal_none hrefusal).2, ?_⟩
      simp [ids, insertStream, takeStreamId, localStream]
  | _ => cases hopen

theorem NameChange.ids_subset (h : NameChange e call e' made) : e.ids ⊆ e'.ids := by
  cases h with
  | quiet hids => exact hids ▸ List.Subset.refl _
  | opened _ _ hids => exact hids ▸ subset_append_left _ _
  | claimed _ _ hids => exact hids ▸ List.Subset.refl _
  | inserted _ hids => exact hids ▸ subset_append_left _ _

/-- The OPENs that took tokens are in order, and those that wait come after
them. -/
structure OpenOrder (e : Engine) (frames : List Call) : Prop where
  sorted : (openIds e.history.committed).Pairwise (· < ·)
  owned : ∀ id ∈ openIds e.history.committed, id ∈ e.ids ∧ e.config.role.owns id = true
  waits : e.terminal = false → ∀ id ∈ waitingOpens e frames,
    (id ∈ e.ids ∧ e.config.role.owns id = true) ∧ ∀ sent ∈ openIds e.history.committed, sent < id

theorem OpenOrder.of_quiet (h : OpenOrder e (pre ++ (used ++ post)))
    (hcommitted : e'.history.committed = e.history.committed)
    (hconfig : e'.config = e.config) (hids : e.ids ⊆ e'.ids)
    (hlive : e'.terminal = false → e.terminal = false)
    (hmade : e'.terminal = false → ∀ id ∈ waitingOpens e' made, id ∈ waitingOpens e used ∨
        (id ∈ e'.ids ∧ e.config.role.owns id = true) ∧
          ∀ sent ∈ openIds e.history.committed, sent < id) :
    OpenOrder e' (pre ++ (made ++ post)) := by
  obtain ⟨h1, h2, h3⟩ := h
  refine ⟨hcommitted ▸ h1, fun id hid => ?_, fun ht id hid => ?_⟩
  · rw [hcommitted] at hid
    exact ⟨hids (h2 id hid).1, hconfig ▸ (h2 id hid).2⟩
  rw [hcommitted, hconfig]
  have hold : id ∈ waitingOpens e (pre ++ (used ++ post)) →
      (id ∈ e'.ids ∧ e.config.role.owns id = true) ∧
        ∀ sent ∈ openIds e.history.committed, sent < id := fun hwait =>
    have hwaits := h3 (hlive ht) id hwait
    ⟨⟨hids hwaits.1.1, hwaits.1.2⟩, hwaits.2⟩
  rcases waitingOpens_split used hid with hwait | hwait
  · exact hold hwait.1
  rcases hmade ht id hwait with hwait | hnew
  · exact hold (waitingOpens_used hwait)
  · exact hnew

theorem Record.openIds_sorted (record : Record) : record.openIds.Pairwise (· < ·) := by
  cases record <;> simp [Record.openIds]

/-- What still waits after an OPEN went waited before, and lies above it. -/
theorem waits_above {r' : Request} {token : RecordKeyToken} {id : Nat}
    (hdeferred : e'.queue.deferred = e.queue.deferred)
    (hguard : opensInOrder e choice (.takeToken r o) (pre ++ post))
    (hid : id ∈ waitingOpens e' (pre ++ ([.sealFrame r' o token] ++ post))) :
    id ∈ waitingOpens e (pre ++ ([.takeToken r o] ++ post)) ∧
      ∀ mine ∈ r.record.openIds, mine < id := by
  rcases waitingOpens_split (e := e) [.takeToken r o] hid with hwait | hwait
  · exact ⟨hwait.1, fun mine hm => (hguard mine hm).1 id hwait.2⟩
  simp only [waitingOpens, waiting, hdeferred, Call.held,
    flatMap_singleton, mem_flatMap, mem_append] at hwait
  obtain ⟨deferred, hmem | hmem, hopen⟩ := hwait
  · exact ⟨waitingOpens_used (mem_waitingOpens.mpr
      ⟨deferred, by simp [waiting, Call.held, hmem], hopen⟩),
      fun mine hm => (hguard mine hm).2 deferred hmem id hopen⟩
  exact ⟨mem_waitingOpens.mpr ⟨deferred, by simp [waiting, hmem], hopen⟩,
    fun mine hm => (hguard mine hm).1 id (mem_waitingOpens.mpr
      ⟨deferred, by simp [waiting, hmem], hopen⟩)⟩

theorem OpenOrder.of_taken {r' : Request} {token : RecordKeyToken}
    (h : OpenOrder e (pre ++ ([.takeToken r o] ++ post)))
    (hlive : e.terminal = false) (hconfig : e'.config = e.config)
    (hids : e.ids ⊆ e'.ids) (hdeferred : e'.queue.deferred = e.queue.deferred)
    (hguard : opensInOrder e choice (.takeToken r o) (pre ++ post))
    (hlog : e'.history.committed = e.history.committed ++ [(token, r.record)]) :
    OpenOrder e' (pre ++ ([.sealFrame r' o token] ++ post)) := by
  obtain ⟨h1, h2, h3⟩ := h
  have hcommitted : openIds e'.history.committed =
      openIds e.history.committed ++ r.record.openIds := by
    rw [hlog, openIds_append]
    simp [openIds]
  have hmine : ∀ id ∈ r.record.openIds,
      id ∈ waitingOpens e (pre ++ ([.takeToken r o] ++ post)) := fun id hid =>
    waitingOpens_used (mem_waitingOpens.mpr ⟨r.deferred, by simp [waiting, Call.held], hid⟩)
  refine ⟨?_, fun id hid => ?_, fun _ id hid => ?_⟩
  · rw [hcommitted]
    exact pairwise_append.mpr ⟨h1, Record.openIds_sorted _,
      fun sent hsent id hid => (h3 hlive id (hmine id hid)).2 sent hsent⟩
  · rw [hcommitted] at hid
    rw [hconfig]
    rcases mem_append.mp hid with hid | hid
    · exact ⟨hids (h2 id hid).1, (h2 id hid).2⟩
    have := (h3 hlive id (hmine id hid)).1
    exact ⟨hids this.1, this.2⟩
  obtain ⟨hold, hlarger⟩ := waits_above hdeferred hguard hid
  obtain ⟨⟨hmem, howns⟩, hsent⟩ := h3 hlive id hold
  rw [hconfig, hcommitted]
  refine ⟨⟨hids hmem, howns⟩, fun sent hs => ?_⟩
  rcases mem_append.mp hs with hs | hs
  · exact hsent sent hs
  · exact hlarger sent hs

/-- One section keeps the order, if no OPEN overtakes a smaller one. -/
theorem Effect.opens_kept (heffect : Effect e choice call e' made)
    (hnames : NameInv e (pre ++ ([call] ++ post))) (hcoded : call.Coded)
    (htyped : call.Typed) (hguard : opensInOrder e choice call (pre ++ post))
    (h : OpenOrder e (pre ++ ([call] ++ post))) :
    OpenOrder e' (pre ++ (made ++ post)) := by
  have hlive : e'.terminal = false → e.terminal = false := fun ht =>
    eq_false_of_ne_true fun hstop => by simp [heffect.fixed.terminal hstop] at ht
  have hids := (heffect.names hnames.unique hcoded).ids_subset
  have hconfig := heffect.fixed.config
  have hquiet : e'.history.committed = e.history.committed →
      OpenOrder e' (pre ++ (made ++ post)) := fun hcommitted =>
    h.of_quiet hcommitted hconfig hids hlive fun ht id hid => by
      rcases heffect.open_carried htyped ht hid with hwait | ⟨rfl, hfree, hadd⟩
      · exact .inl hwait
      refine .inr ⟨⟨hadd ▸ mem_append_right _ mem_cons_self, hnames.next.1⟩, fun sent hsent => ?_⟩
      have := hnames.mine sent (h.owned sent hsent).1 (h.owned sent hsent).2
      simpa [hfree] using this
  cases heffect.tokens with
  | take ht _ _ _ _ hview hcall hmade =>
    subst hcall hmade
    refine h.of_taken ht hconfig hids heffect.taken_deferred hguard ?_
    exact congrArg TokenView.committed hview
  | quiet hview | sealing _ _ hview | enqueue _ _ _ _ hview | drop _ hview
  | startRekey _ _ _ _ hview | commitRekey _ _ _ _ hview =>
    exact hquiet (congrArg TokenView.committed hview)

theorem Move.opens_kept {emitted taken : Option Wire}
    (hmove : Move e choice used e' made emitted taken)
    (hnames : NameInv e (pre ++ (used ++ post)))
    (hcoded : ∀ call ∈ used, call.Coded) (htyped : ∀ call ∈ used, call.Typed)
    (hguard : ∀ call, used = [call] → opensInOrder e choice call (pre ++ post))
    (h : OpenOrder e (pre ++ (used ++ post))) :
    OpenOrder e' (pre ++ (made ++ post)) := by
  cases hmove with
  | run heffect =>
    exact heffect.opens_kept hnames (hcoded _ mem_cons_self)
      (htyped _ mem_cons_self) (hguard _ rfl) h
  | call hcallable =>
    refine h.of_quiet rfl rfl (List.Subset.refl _) id fun _ id hid => .inl ?_
    have hneutral := Engine.callable_neutral hcallable
    cases ‹Call› <;> first | exact hid | cases hneutral
  | pump | release | deliver =>
    exact h.of_quiet rfl rfl (List.Subset.refl _) id fun _ _ hid => .inl hid
  | sent | sendFails =>
    exact h.of_quiet rfl rfl (afterSend_ids hnames.unique ▸ List.Subset.refl _) id
      fun _ _ hid => .inl hid

end Step

/-- In a run without overtaking every OPEN takes its token in order. -/
theorem Endpoint.Run.opens {config : Config} {endpoint : Endpoint}
    (h : Endpoint.Run config opensInOrder endpoint) :
    OpenOrder endpoint.engine endpoint.frames := by
  refine Run.invariant (K := fun e frames => NameInv e frames ∧ ShapeInv e frames ∧
      ∀ call ∈ frames, call.Coded)
    (fun _ hrun => ⟨hrun.names, hrun.shapes, hrun.coded⟩) ?_
    (fun hknown _ hinv hmove hguard => hmove.opens_kept hknown.1
      (fun call hcall => hknown.2.2 call (by simp [hcall]))
      (fun call hcall => hknown.2.1.frames call (by simp [hcall])) hguard hinv) h
  refine ⟨?_, ?_, ?_⟩ <;>
    simp [Endpoint.initial, Endpoint.frames, openIds, waitingOpens, waiting, Call.held]

end Yume.Session
