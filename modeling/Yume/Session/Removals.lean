/-
How streams are removed.  A closed stream keeps no waiting read, and its pending
writes wait for the call that closed it.  What a section does to one stream also
says where the payloads come from that its reader sees.
-/
import Yume.Session.Completions
import Yume.Session.StreamRuns

namespace Yume.Session

open Yume.Lib Engine List

/-- An update of a stream that keeps its place and takes nothing new to hold. -/
structure Stream.Keeps (s s' : Stream) : Prop where
  id : s'.id = s.id
  closed : s'.closed = s.closed
  reader : s.pendingRead = none → s'.pendingRead = none
  writers : s'.pendingWrites ⊆ s.pendingWrites
  arrived : s'.arrived <+ s.arrived

/-- Where a section leaves a stream. -/
inductive Fate (e : Engine) (call : Call) (made : List Call) (s' : Stream) :
    Prop where
  | kept {s} : s ∈ e.streams → s.Keeps s' → Fate e call made s'
  | «open» : s'.IsOpen → Fate e call made s'
  | removed : s'.closed = true → s'.pendingRead = none →
    .dropWrites s'.id ∈ made → Fate e call made s'

/-- Where the payloads that arrived for a reader come from.  New data joins the
others at the end, unless a read waits although data is queued. -/
inductive Supplied (e : Engine) (call : Call) (s' : Stream) : Prop where
  | old {s} : s ∈ e.streams → s'.id = s.id → s'.arrived <+ s.arrived → Supplied e call s'
  | new : s'.arrived = [] → Supplied e call s'
  | more {s kind payload} : s ∈ e.streams → s'.id = s.id → call = .publishData s.id kind payload →
    ((s.pendingRead ≠ none → s.inbound = []) → s'.arrived = s.arrived ++ [payload]) →
    Supplied e call s'

/-- What a section leaves of a stream, if it does not stop the session. -/
structure Remains (live : Prop) (e : Engine) (call : Call) (made : List Call) (s' : Stream) :
    Prop where
  fate : live → Fate e call made s'
  supplied : Supplied e call s'

section Remaining

variable {e e' : Engine} {choice : Choice} {call : Call} {made : List Call}
  {id : Nat} {stream s s' : Stream} {update : Stream → Stream} {live : Prop}

theorem Stream.Keeps.of_holdings (h : s'.holdings = s.holdings) : s.Keeps s' := by
  injection h with hid hclosed _ hread hwrites harrived
  exact ⟨hid, hclosed, fun hnone => hread.trans hnone, hwrites ▸ List.Subset.refl _,
    harrived ▸ List.Sublist.refl _⟩

theorem holdings_back (h : e'.holdings = e.holdings) :
    ∀ s' ∈ e'.streams, ∃ s ∈ e.streams, s.Keeps s' := by
  intro s' hmem
  have hheld : s'.holdings ∈ e.holdings := h ▸ mem_map_of_mem hmem
  obtain ⟨s, hs, hsame⟩ := mem_map.mp hheld
  exact ⟨s, hs, .of_holdings hsame.symm⟩

theorem Stream.receiveData_arrived (payload : Buffer) (h : s.pendingRead ≠ none → s.inbound = []) :
    (s.receiveData payload).arrived = s.arrived ++ [payload] := by
  cases hread : s.pendingRead with
  | none => simp [Stream.receiveData, Stream.arrived, hread]
  | some => simp [Stream.receiveData, Stream.arrived, hread, h (by simp [hread])]

namespace Remains

theorem kept (hs : s ∈ e.streams) (h : s.Keeps s') : Remains live e call made s' :=
  ⟨fun _ => .kept hs h, .old hs h.id h.arrived⟩

theorem new (hopen : s'.IsOpen) (hnone : s'.arrived = []) : Remains live e call made s' :=
  ⟨fun _ => .open hopen, .new hnone⟩

theorem of_holdings (hmem : s' ∈ e'.streams) (h : e'.holdings = e.holdings) :
    Remains live e call made s' := by
  obtain ⟨s, hs, hkeeps⟩ := holdings_back h s' hmem
  exact .kept hs hkeeps

theorem same (hmem : s' ∈ e.streams) : Remains live e call made s' :=
  .of_holdings hmem rfl

theorem stopped {reason : Status} {failed : Bool} (hmem : s' ∈ (e.stop reason failed).streams) :
    Remains ((e.stop reason failed).terminal = e.terminal) e call made s' := by
  cases hterminal : e.terminal with
  | true =>
    rw [stop, if_pos hterminal] at hmem
    exact .same hmem
  | false =>
    refine ⟨fun hlive => absurd ((stop_terminal e reason failed).symm.trans hlive) nofun, ?_⟩
    rw [stop, if_neg (by simp [hterminal])] at hmem
    obtain ⟨s, hs, rfl⟩ := mem_map.mp hmem
    exact .old hs rfl (.refl _)

variable (hmem : s' ∈ (e.modify id update).streams)
include hmem

theorem modify_all (h : ∀ s : Stream, (update s).holdings = s.holdings) :
    Remains live e call made s' :=
  .of_holdings hmem (modify_holdings h)

/-- An update of one stream leaves the others alone. -/
theorem modify (hunique : e.ids.Nodup) (hstream : stream ∈ e.streams) (hid : stream.id = id)
    (h : Remains live e call made (update stream)) : Remains live e call made s' := by
  rcases mem_modify.mp hmem with ⟨s, hs, hname, rfl⟩ | ⟨hs, -⟩
  · rwa [eq_of_id hunique hstream hs (hname.trans hid.symm)]
  · exact .same hs

/-- An update of an open stream that takes at most a read or a write to hold. -/
theorem modify_open (hunique : e.ids.Nodup) (hfind : e.findOpen id = some stream)
    (hopen : stream.IsOpen → (update stream).IsOpen)
    (hid : (update stream).id = stream.id) (harrived : (update stream).arrived = stream.arrived) :
    Remains live e call made s' := by
  obtain ⟨hfound, hwas⟩ := findOpen_isOpen hfind
  obtain ⟨hstream, hname, -⟩ := find_some hfound
  exact .modify hmem hunique hstream hname
    ⟨fun _ => .open (hopen hwas), .old hstream hid (harrived ▸ List.Sublist.refl _)⟩

end Remains

/-- Every stream is left in one of these ways. -/
theorem Effect.remains (h : Effect e choice call e' made) (hunique : e.ids.Nodup)
    (hmem : s' ∈ e'.streams) : Remains (e'.terminal = e.terminal) e call made s' := by
  cases h with
  | deferPushes _ hreserve | tokenUnadmitted _ hreserve =>
    exact .of_holdings hmem (reserveControl_holdings hreserve :)
  | tokenExhausted _ hreserve hadmitted | tokenBare _ hreserve hadmitted =>
    exact .of_holdings hmem ((admitControl_holdings hadmitted).trans
      (reserveControl_holdings hreserve) :)
  | tokenTaken _ hreserve hadmitted =>
    exact .of_holdings hmem (.trans (modify_holdings fun _ => rfl)
      ((admitControl_holdings hadmitted).trans (reserveControl_holdings hreserve)))
  | publishes | writeSettled | finishes | settles | aborts | erases | registers
  | reportsEnd | readsEnd | readsLastEnd | shutsDown | closes | acceptsPeer | activates | discardsData
  | discardsCrossed | creditsConnection | creditsStream | creditsClosed | pings | pongs
  | switchesInbound =>
    exact .modify_all hmem fun _ => rfl
  | tokenFails | controlsFailed | stops => exact .stopped hmem
  | acceptanceDelivered hfind | parksRead hfind | writes hfind =>
    exact .modify_open hmem hunique hfind (fun hopen => ⟨hopen.present, hopen.unclosed⟩) rfl rfl
  | writeTaken _ _ hstream hpresent hopen =>
    exact .modify hmem hunique hstream rfl
      ⟨fun _ => .open ⟨hpresent, hopen⟩, .old hstream rfl (.refl _)⟩
  | writeRefunded => exact .modify_all hmem (Stream.refundWrite_holdings _ _)
  | flushDrops | flushFindsClosed => exact .of_holdings hmem (failDeferred_holdings ..)
  | flushAbandons => exact .of_holdings hmem (forgetWrites_holdings ..)
  | @removes id stream _ hfind =>
    obtain ⟨hstream, hid, -⟩ := find_some (findOpen_some hfind).1
    exact .modify hmem hunique hstream rfl
      ⟨fun _ => .removed rfl rfl (by simp [Stream.close, hid]),
        .old hstream rfl (.refl _)⟩
  | dropsWrite hobject =>
    obtain ⟨hstream, hid⟩ := object_some hobject
    exact .modify hmem hunique hstream hid (.kept hstream
      ⟨rfl, rfl, id, tail_sublist _ |>.subset, .refl _⟩)
  | dropsInbound hobject =>
    obtain ⟨hstream, hid⟩ := object_some hobject
    exact .modify hmem hunique hstream hid (.kept hstream ⟨rfl, rfl, id, List.Subset.refl _,
      (List.Sublist.refl _).append (tail_sublist _)⟩)
  | reads hfind _ hinbound | readsLast hfind _ hinbound =>
    obtain ⟨hstream, hid, -⟩ := find_some (findOpen_some hfind).1
    refine .modify hmem hunique hstream hid
      (.kept hstream ⟨rfl, rfl, id, List.Subset.refl _, ?_⟩)
    simp [Stream.arrived, Stream.readFront, hinbound]
  | retires => exact .of_holdings hmem (retireStream_holdings ..)
  | creditReturns | discardReturns => exact .of_holdings hmem (returnToStream_holdings ..)
  | opens =>
    rcases mem_append.mp hmem with hmem | hmem
    · exact .same hmem
    rw [mem_singleton.mp hmem]
    exact .new ⟨rfl, rfl⟩ rfl
  | cancelsRead hfind =>
    obtain ⟨hstream, hid, -⟩ := find_some hfind
    exact .modify hmem hunique hstream hid (.kept hstream
      ⟨rfl, rfl, fun _ => rfl, List.Subset.refl _, .refl _⟩)
  | cancelsWrite hfind =>
    obtain ⟨hstream, hid, -⟩ := find_some hfind
    exact .modify hmem hunique hstream rfl (.kept hstream
      ⟨rfl, rfl, id, filter_subset_self _, .refl _⟩)
  | inserts | insertsRefused =>
    -- the new stream is at the end of the table and has seen its own OPEN
    rcases mem_modify.mp hmem with ⟨s, hs, -, rfl⟩ | ⟨hs, -⟩ <;>
      rcases mem_append.mp hs with hs | hs
    · exact .kept hs (.of_holdings rfl)
    · rw [mem_singleton.mp hs]
      exact .new ⟨rfl, rfl⟩ rfl
    · exact .same hs
    rw [mem_singleton.mp hs]
    exact .new ⟨rfl, rfl⟩ rfl
  | deliversData _ hfind hopen =>
    obtain ⟨hstream, rfl, hpresent⟩ := find_some hfind
    exact .modify hmem hunique hstream rfl ⟨fun _ => .open ⟨hpresent, hopen⟩,
      .more hstream rfl rfl (Stream.receiveData_arrived (s := Stream.debit _ _) _)⟩
  | @closesByPeer _ code _ _ _ hfind | @shutsDownByPeer _ code _ _ hfind =>
    obtain ⟨hstream, hid, -⟩ := find_some hfind
    refine .modify hmem hunique hstream hid (.kept hstream ?_)
    cases code with
    | normal =>
      refine ⟨rfl, rfl, fun hnone => ?_, List.Subset.refl _, .refl _⟩
      simp [receiveClose, Stream.receiveFin, Stream.noteReceived, hnone]
    | _ => exact .of_holdings rfl
  | acceptsOpen => exact .modify_all hmem (Stream.acceptLocally_holdings _ _ _)
  | _ => exact .same hmem

/-- A call that drops the writes of a removed stream goes on until none is left. -/
theorem Effect.drops_on (h : Effect e choice (.dropWrites id) e' made) :
    .dropWrites id ∈ made ∨ ∀ stream, e.object id = some stream → stream.pendingWrites = [] := by
  cases h with
  | idle hc | receiveFailing hc => cases hc
  | dropWritesEnds hempty => exact .inr hempty
  | dropsWrite => exact .inl mem_cons_self

end Remaining

theorem Engine.object_eq_some {e : Engine} {stream : Stream} (hunique : e.ids.Nodup)
    (h : stream ∈ e.streams) : e.object stream.id = some stream := by
  cases hobject : e.object stream.id with
  | none => simpa using find?_eq_none.mp hobject stream h
  | some =>
    obtain ⟨hmem, hid⟩ := object_some hobject
    exact congrArg some (eq_of_id hunique h hmem hid)

/-- A closed stream of a live session has no waiting read, and its pending writes
wait for a call that drops them. -/
def RemovalInv (e : Engine) (frames : List Call) : Prop :=
  e.terminal = false → ∀ stream ∈ e.streams, stream.closed = true →
    stream.pendingRead = none ∧ (stream.pendingWrites ≠ [] → .dropWrites stream.id ∈ frames)

section Inv

variable {e e' : Engine} {choice : Choice} {call : Call}
  {pre used made post : List Call} {emitted taken : Option Wire}

theorem Effect.removals_kept (heffect : Effect e choice call e' made)
    (hunique : e.ids.Nodup) (h : RemovalInv e (pre ++ ([call] ++ post))) :
    RemovalInv e' (pre ++ (made ++ post)) := by
  intro hlive s' hmem hclosed
  have hbefore := (Move.run heffect).live_before hlive
  cases (heffect.remains hunique hmem).fate (hlive.trans hbefore.symm) with
  | @kept s hs hkeeps =>
    obtain ⟨hread, hdrops⟩ := h hbefore s hs (hkeeps.closed ▸ hclosed)
    refine ⟨hkeeps.reader hread, fun hwrites => ?_⟩
    have hheld : s.pendingWrites ≠ [] := fun hnil =>
      hwrites (subset_nil.mp (hnil ▸ hkeeps.writers))
    have hpending := hdrops hheld
    rw [hkeeps.id]
    simp only [mem_append, mem_singleton] at hpending ⊢
    rcases hpending with hpending | hcall | hpending
    · exact .inl hpending
    · subst hcall
      refine .inr (.inl (heffect.drops_on.resolve_right fun hempty => hheld ?_))
      exact hempty s (object_eq_some hunique hs)
    · exact .inr (.inr hpending)
  | «open» hopen => simp [hopen.unclosed] at hclosed
  | removed _ hread hmade => exact ⟨hread, fun _ => by simp [hmade]⟩

/-- A change that touches neither the holdings nor the calls that drop writes. -/
theorem RemovalInv.of_holdings (h : RemovalInv e (pre ++ ([] ++ post)))
    (hterminal : e'.terminal = e.terminal) (hholdings : e'.holdings = e.holdings) :
    RemovalInv e' (pre ++ (made ++ post)) := by
  intro hlive s' hmem hclosed
  obtain ⟨s, hs, hkeeps⟩ := holdings_back hholdings s' hmem
  obtain ⟨hread, hdrops⟩ := h (hterminal ▸ hlive) s hs (hkeeps.closed ▸ hclosed)
  refine ⟨hkeeps.reader hread, fun hwrites => ?_⟩
  have hpending := hdrops fun hnil => hwrites (subset_nil.mp (hnil ▸ hkeeps.writers))
  rw [hkeeps.id]
  simp only [nil_append, mem_append] at hpending ⊢
  exact hpending.imp id .inr

theorem Move.removals_kept (hmove : Move e choice used e' made emitted taken)
    (hunique : e.ids.Nodup) (h : RemovalInv e (pre ++ (used ++ post))) :
    RemovalInv e' (pre ++ (made ++ post)) := by
  cases hmove with
  | run heffect => exact heffect.removals_kept hunique h
  | sent | sendFails => exact h.of_holdings rfl (completeControl_holdings ..)
  | _ => exact h.of_holdings rfl rfl

end Inv

/-- In every run a closed stream of a live session has no waiting read, and its
pending writes wait for a call that drops them. -/
theorem Endpoint.Run.removals {config : Config} {guard : Guard} {endpoint : Endpoint}
    (h : Endpoint.Run config guard endpoint) :
    RemovalInv endpoint.engine endpoint.frames := by
  refine Run.invariant (K := fun e _ => e.ids.Nodup) (fun _ hrun => hrun.names.unique) ?_
    (fun hunique _ hinv hmove _ => hmove.removals_kept hunique hinv) h
  simp [RemovalInv, Endpoint.initial]

/-- `stream_close` has just removed a stream with two writes. -/
theorem removals_dropping : ∃ (endpoint : Endpoint) (stream : Stream),
    endpoint.engine.terminal = false ∧ stream ∈ endpoint.engine.streams ∧
    stream.closed = true ∧ stream.pendingWrites.length = 2 ∧ stream.pendingRead = none ∧
    .dropWrites stream.id ∈ endpoint.frames := by
  obtain ⟨endpoint, hrun, hseen⟩ := Endpoint.Run.exists_of_follow (sampleConfig .server) unrestricted
    (twoWrites 100 50 ++ [.call (.streamClose 1)] ++ runs 11 3)
    (fun endpoint => (endpoint.engine.terminal,
      endpoint.engine.streams.map fun s => (s.closed, s.pendingWrites.length)))
    (false, [(true, 2)]) (by decide +kernel)
  obtain ⟨hlive, hstreams⟩ := Prod.mk.inj hseen
  obtain ⟨stream, hstream, hseen⟩ := map_eq_singleton_iff.mp hstreams
  obtain ⟨hclosed, hwrites⟩ := Prod.mk.inj hseen
  have hmem : stream ∈ endpoint.engine.streams := by simp [hstream]
  obtain ⟨hread, hdrops⟩ := hrun.removals hlive stream hmem hclosed
  exact ⟨endpoint, stream, hlive, hmem, hclosed, hwrites, hread,
    hdrops fun hnone => by simp [hnone] at hwrites⟩

end Yume.Session
