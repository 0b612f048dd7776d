/-
Two joined sessions, payload by payload: what a reader on one side sees is what
the other side sent on that stream, in that order.
-/
import Mathlib.Data.List.Sort
import Yume.Session.OpenPeer
import Yume.Session.Removals

namespace Yume.Session

open Yume.Lib Engine List

def Record.payloadFor (id : Nat) : Record → Option Buffer
  | .data stream _ payload => if stream = id then some payload else none
  | _ => none

/-- The payloads that a log's records carry for one stream. -/
def payloads (id : Nat) (log : List (RecordKeyToken × Record)) : List Buffer :=
  log.filterMap fun entry => entry.2.payloadFor id

/-- The data a section is about to publish to its stream. -/
def Call.supplying : Call → List (Nat × Buffer)
  | .processData id _ payload | .publishData id _ payload => [(id, payload)]
  | _ => []

theorem dispatch_supplying {state : SessionState} {record : Record} {id : Nat} {payload : Buffer}
    (h : (id, payload) ∈ (dispatch state record).flatMap Call.supplying) :
    record.payloadFor id = some payload := by
  cases record <;> simp only [dispatch] at h <;> split at h <;>
    simp_all [Call.supplying, receiveFailed, failCall, Record.payloadFor]

section Step

variable {e e' : Engine} {choice : Choice} {call : Call} {pre used made post : List Call}
  {emitted taken : Option Wire}

/-- A section passes on the data it was about to publish, or opens a record. -/
theorem Effect.supplying (h : Effect e choice call e' made) :
    (e'.history.opened = e.history.opened ∧
      made.flatMap Call.supplying ⊆ call.supplying) ∨
    ∃ token body, call = .processReceived (.sealed token body) ∧
      e' = e.openedRecord token body.plaintext ∧ made = dispatch e.state body.plaintext := by
  cases h.arrivals with
  | opened hcall _ _ _ he' hmade => exact .inr ⟨_, _, hcall, he', hmade⟩
  | failed hcall _ he' hmade =>
    subst hcall he' hmade
    exact .inl ⟨rfl, nil_subset _⟩
  | quiet hsame =>
    refine .inl ⟨hsame, ?_⟩
    have hnone : call.name ≠ .processReceived → call.name ≠ .processData →
        made.flatMap Call.supplying = [] := fun hreceived hdata =>
      h.flatMap_nil fun left hleft => by
        cases left <;> first
          | rfl
          | (cases call <;> first | exact absurd rfl hreceived | exact absurd rfl hdata | cases hleft)
    cases h with
    | openSucceeds => simp [openedRecord, noteOpened] at hsame
    | stagesData => exact List.Subset.refl _
    | idle | receiveFailing | receiveExpires | receivesAck | openFails | discardsData =>
      exact nil_subset _
    | _ => exact (hnone nofun nofun) ▸ nil_subset _

theorem Call.supplying_eq_nil (h : call.receiveRole = 0) : call.supplying = [] := by
  cases call <;> first | rfl | cases h

/-- The payloads that arrived on a stream were opened in that order, and data that
is about to be published was opened after them. -/
structure SupplyInv (e : Engine) (frames : List Call) : Prop where
  arrived : ∀ s ∈ e.streams, s.arrived <+ payloads s.id e.history.opened
  pending : ∀ id payload, (id, payload) ∈ frames.flatMap Call.supplying →
    ∃ before, payloads id e.history.opened = before ++ [payload] ∧
      ∀ s ∈ e.streams, s.id = id → s.arrived <+ before

theorem SupplyInv.of_holdings (h : SupplyInv e (pre ++ ([] ++ post)))
    (hholdings : e'.holdings = e.holdings) (hlog : e'.history.opened = e.history.opened)
    (hmade : made.flatMap Call.supplying = []) : SupplyInv e' (pre ++ (made ++ post)) := by
  have hback := holdings_back hholdings
  refine ⟨fun s' hmem => ?_, fun id payload hpending => ?_⟩
  · obtain ⟨s, hs, hkeeps⟩ := hback s' hmem
    rw [hlog, hkeeps.id]
    exact hkeeps.arrived.trans (h.arrived s hs)
  obtain ⟨before, hbefore, hstreams⟩ := h.pending id payload (by
    simpa only [flatMap_append, hmade, flatMap_nil] using hpending)
  refine ⟨before, hlog ▸ hbefore, fun s' hmem hid => ?_⟩
  obtain ⟨s, hs, hkeeps⟩ := hback s' hmem
  exact hkeeps.arrived.trans (hstreams s hs (hkeeps.id ▸ hid))

theorem Effect.supply_kept (heffect : Effect e choice call e' made) (hunique : e.ids.Nodup)
    (hroles : RoleInv e (pre ++ ([call] ++ post)))
    (hwaits : ∀ s ∈ e.streams, s.pendingRead ≠ none → s.inbound = [])
    (h : SupplyInv e (pre ++ ([call] ++ post))) : SupplyInv e' (pre ++ (made ++ post)) := by
  rcases heffect.supplying with ⟨hlog, hmade⟩ | ⟨token, body, rfl, rfl, rfl⟩
  · refine ⟨fun s' hmem => ?_, fun id payload hpending => ?_⟩
    · rw [hlog]
      cases (heffect.remains hunique hmem).supplied with
      | old hs hid hsub => exact hid ▸ hsub.trans (h.arrived _ hs)
      | new hnone => exact hnone ▸ nil_sublist _
      | @more s _ payload hs hid hcall harrived =>
        obtain ⟨before, hbefore, hstreams⟩ := h.pending s.id payload (by
          simp [hcall, Call.supplying])
        rw [harrived (hwaits s hs), hid, hbefore]
        exact (hstreams s hs rfl).append (.refl _)
    have hwas : (id, payload) ∈ (pre ++ ([call] ++ post)).flatMap Call.supplying := by
      simp only [flatMap_append, flatMap_singleton, mem_append] at hpending ⊢
      exact hpending.imp_right (.imp_left (@hmade _))
    obtain ⟨before, hbefore, hstreams⟩ := h.pending id payload hwas
    refine ⟨before, hlog ▸ hbefore, fun s' hmem hname => ?_⟩
    cases (heffect.remains hunique hmem).supplied with
    | old hs hid hsub => exact hsub.trans (hstreams _ hs (hid ▸ hname))
    | new hnone => exact hnone ▸ nil_sublist _
    | more _ _ hcall =>
      -- what was about to be published has been, and nothing else is
      subst hcall
      obtain ⟨hpre, hpost⟩ := hroles.beside_receive rfl fun _ => Call.supplying_eq_nil
      have hnone : made.flatMap Call.supplying = [] := heffect.flatMap_nil fun left hleft => by
        cases left <;> first | rfl | cases hleft
      simp [flatMap_append, hpre, hnone, hpost] at hpending
  obtain ⟨hpre, hpost⟩ := hroles.beside_receive rfl fun _ => Call.supplying_eq_nil
  have hlog : ∀ id, payloads id (e.openedRecord token body.plaintext).history.opened =
      payloads id e.history.opened ++ (body.plaintext.payloadFor id).toList := by
    intro id
    refine filterMap_append.trans (congrArg _ ?_)
    cases hfor : body.plaintext.payloadFor id <;> simp [hfor]
  refine ⟨fun s hs => ?_, fun id payload hpending => ?_⟩
  · rw [hlog]
    exact (h.arrived s hs).trans (sublist_append_left _ _)
  simp only [flatMap_append, hpre, hpost, nil_append, append_nil] at hpending
  exact ⟨_, (hlog id).trans (by rw [dispatch_supplying hpending]; rfl), fun s hs hid =>
    hid ▸ h.arrived s hs⟩

theorem Move.supply_kept (hmove : Move e choice used e' made emitted taken)
    (hunique : e.ids.Nodup) (hroles : RoleInv e (pre ++ (used ++ post)))
    (hwaits : ∀ s ∈ e.streams, s.pendingRead ≠ none → s.inbound = [])
    (h : SupplyInv e (pre ++ (used ++ post))) : SupplyInv e' (pre ++ (made ++ post)) := by
  cases hmove with
  | run heffect => exact heffect.supply_kept hunique hroles hwaits h
  | call hcallable =>
    refine h.of_holdings rfl rfl ?_
    have hneutral := callable_neutral hcallable
    cases ‹Call› <;> first | rfl | cases hneutral
  | pump | release | deliver => exact h.of_holdings rfl rfl rfl
  | sent | sendFails => exact h.of_holdings (completeControl_holdings ..) rfl rfl

end Step

theorem Endpoint.Run.supply {config : Config} {guard : Guard} {endpoint : Endpoint}
    (h : Endpoint.Run config guard endpoint) : SupplyInv endpoint.engine endpoint.frames := by
  refine Run.invariant (K := fun e frames => e.ids.Nodup ∧ RoleInv e frames ∧
      ∀ s ∈ e.streams, s.ReadSide)
    (fun _ hrun => ⟨hrun.names.unique, hrun.roles, hrun.streams (readSide_rule _)⟩) ?_
    (fun hknown _ hinv hmove _ => hmove.supply_kept hknown.1 hknown.2.1
      (fun s hs hread => ((hknown.2.2 s hs).waits hread).1) hinv) h
  constructor <;> simp [Endpoint.initial, Endpoint.frames, Call.supplying]

section Joined

variable {config : EndpointRole → Config} {guard : Guard} {world : World}

/-- What one side opened the other side queued, in the same order. -/
theorem World.Run.opened_sublist (h : World.Run config guard world) (side : EndpointRole) :
    (world.endpoint side.peer).engine.history.opened <+
      (world.endpoint side).engine.history.queued := by
  have hsorted := (h.endpoint side.peer).arrivals.sorted
  obtain ⟨hlog, hheld⟩ := (h.endpoint side).tokens
  have hqueued := hlog.numbered.sublist ((sublist_append_left _ _).trans hheld.queued)
  have : Std.Asymm fun a b : RecordKeyToken × Record => a.1.sequence < b.1.sequence :=
    ⟨fun _ _ => Nat.lt_asymm⟩
  exact sublist_of_subperm_of_pairwise
    (subperm_of_subset hsorted.nodup (h.linked side).opened) hsorted hqueued

/-- In every run of two joined sessions each side opens the other's records in the
order in which they were queued, and no record key twice. -/
theorem records_open_in_order (h : World.Run config guard world) (side : EndpointRole) :
    (world.endpoint side.peer).engine.history.opened <+
      (world.endpoint side).engine.history.queued ∧
    ((world.endpoint side.peer).engine.history.opened.map (·.1.sequence)).Nodup :=
  ⟨h.opened_sublist side, (pairwise_map.mpr ((h.endpoint side.peer).arrivals.sorted)).nodup⟩

/-- In every run of two joined sessions, under any interleaving, the payloads that
arrived for a reader are among those the peer sent on that stream, in the same
order and none of them twice. -/
theorem payloads_arrive_in_order (h : World.Run config guard world) (side : EndpointRole)
    {stream : Stream} (hmem : stream ∈ (world.endpoint side.peer).engine.streams) :
    stream.delivered ++ stream.inbound <+
      payloads stream.id (world.endpoint side).engine.history.queued :=
  ((h.endpoint side.peer).supply.arrived stream hmem).trans ((h.opened_sublist side).filterMap _)

end Joined

theorem payloads_arrive_in_order_exchange : ∃ (world : World) (stream : Stream),
    stream.delivered.length = 2 ∧ stream.delivered ++ stream.inbound <+
      payloads stream.id (world.endpoint .client).engine.history.queued := by
  obtain ⟨world, stream, hrun, hmem, hdelivered, -⟩ := sample_exchange
  exact ⟨world, stream, by simp [hdelivered], payloads_arrive_in_order hrun .client hmem⟩

theorem records_open_in_order_exchange : ∃ world : World,
    (world.endpoint .server).engine.streams ≠ [] ∧
    (world.endpoint .server).engine.history.opened <+
      (world.endpoint .client).engine.history.queued := by
  obtain ⟨world, stream, hrun, hmem, -⟩ := sample_exchange
  exact ⟨world, ne_nil_of_mem hmem, (records_open_in_order hrun .client).1⟩

end Yume.Session
