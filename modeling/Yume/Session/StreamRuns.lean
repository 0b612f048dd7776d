/-
What holds of every stream of a session in every run: whatever new streams have
and each update of one stream object keeps.  The reading side is the first
such property: the end of a stream is reported after its data.
-/
import Yume.Session.Names

namespace Yume.Session

open Yume.Lib Engine List

/-- A property that new streams have and every update of a stream keeps. -/
structure StreamRule (limits : SessionLimits) (P : Stream → Prop) : Prop where
  new : ∀ {e : Engine} {stream : Stream}, e.limits = limits → NewStream e stream → P stream
  op : ∀ {s s' : Stream}, StreamOp limits s s' → P s → P s'

theorem StreamRule.ops {limits : SessionLimits} {P : Stream → Prop} {s s' : Stream}
    (hP : StreamRule limits P) (hops : StreamOps limits s s') (h : P s) : P s' := by
  induction hops with
  | refl => exact h
  | tail _ hop ih => exact hP.op hop ih

variable {config : Config} {guard : Guard} {endpoint : Endpoint} {stream : Stream}

theorem Endpoint.Run.streams {P : Stream → Prop} (hP : StreamRule config.limits P)
    (h : Endpoint.Run config guard endpoint) : ∀ stream ∈ endpoint.engine.streams, P stream := by
  refine Run.invariant (P := fun e _ => ∀ stream ∈ e.streams, P stream)
    (K := fun e frames => e.config = config ∧ e.ids.Nodup ∧ ∀ call ∈ frames, call.Coded)
    (fun _ hrun => ⟨hrun.config_eq, hrun.names.unique, hrun.coded⟩)
    (by simp [Endpoint.initial]) ?_ h
  intro e e' choice pre used made post emitted taken hknown _ hall hmove _ stream hmem
  obtain ⟨hconfig, hunique, hcoded⟩ := hknown
  have hlimits : e.limits = config.limits := congrArg Config.limits hconfig
  rcases hmove.stream_back hunique (fun call hcall => hcoded call (by simp [hcall])) hmem with
    ⟨old, hold, hops⟩ | hnew
  · exact hP.ops (hlimits ▸ hops) (hall old hold)
  · exact hP.new hlimits hnew

/-- The reading side: a read waits only for data that is still to come, and an
end that is known or was reported leaves nothing to read. -/
structure Stream.ReadSide (s : Stream) : Prop where
  waits : s.pendingRead ≠ none → s.inbound = [] ∧ s.peerWriteClosed = false
  ended : s.endOfStream = true ∨ s.endReported = true →
    s.inbound = [] ∧ s.peerWriteClosed = true

theorem readSide_rule (limits : SessionLimits) : StreamRule limits Stream.ReadSide where
  new _ hnew := by cases hnew <;> exact ⟨nofun, nofun⟩
  op hop h := by
    obtain ⟨hwaits, hended⟩ := h
    cases hop with
    | close | cancelRead => exact ⟨fun hread => absurd rfl hread, hended⟩
    | parkRead _ hempty hfin => exact ⟨fun _ => ⟨hempty, hfin⟩, hended⟩
    | dropInbound =>
      exact ⟨fun hread => (hwaits hread).imp_left (congrArg tail),
        fun hend => (hended hend).imp_left (congrArg tail)⟩
    | readFront _ hread hinbound =>
      -- data was left, so no end was known before
      have hunknown := mt hended (by simp [hinbound])
      refine ⟨fun hsome => absurd hread hsome, fun hend => ?_⟩
      simp_all [Stream.readFront]
    | readEnd _ _ hempty hfin => exact ⟨hwaits, fun _ => ⟨hempty, hfin⟩⟩
    | reportEnd hend => exact ⟨hwaits, fun _ => hended (.inl hend)⟩
    | @receiveClose _ code =>
      cases code with
      | normal =>
        simp only [Engine.receiveClose, Stream.receiveFin, Stream.noteReceived]
        refine ⟨fun hread => absurd ?_ hread, fun hend => ⟨?_, rfl⟩⟩
        · split
          · rfl
          rename_i hleft
          by_contra hsome
          exact hleft (List.isEmpty_iff.mpr (hwaits hsome).1)
        simp only [Bool.or_eq_true, Bool.and_eq_true, List.isEmpty_iff] at hend
        rcases hend with (hend | hend) | hend | hend
        · exact (hended (.inl hend)).1
        · exact hend.1
        · exact (hended (.inr hend)).1
        · exact hend.1
      | _ => exact ⟨hwaits, hended⟩
    | deliverData _ _ haccepts =>
      dsimp only [Stream.noteReceived, Stream.receiveData, Stream.debit]
      refine ⟨fun hread => absurd rfl hread, fun hend => ?_⟩
      exact absurd ((hended hend).2.symm.trans haccepts.fin) nofun
    | acceptOpen =>
      dsimp only [Stream.noteReceived, Stream.acceptLocally, Stream.openWindow,
        Stream.receiveCredit]
      exact ⟨hwaits, hended⟩
    | refundWrite =>
      dsimp only [Stream.refundWrite, Stream.endPublication, Stream.forget]
      exact ⟨hwaits, hended⟩
    | _ => exact ⟨hwaits, hended⟩

/-- The client opens a stream, writes twice and shuts its side down.  The server
accepts it, receives both records and the FIN, and reads to the end. -/
def sampleExchange : List WorldLabel :=
  sampleConnected ++ starts .client (.asyncOpen sampleOpen) ++ sideRuns .client 5 8 ++
    sends .client ++ receives .server 5 4 ++
    starts .server (.completePeerOpen 1 {}) ++ sideRuns .server 6 12 ++
    sends .server ++ receives .client 7 15 ++
    starts .client (.streamWrite 1 ⟨7, 100, 100⟩) ++ sideRuns .client 8 12 ++
    starts .client (.streamWrite 1 ⟨8, 50, 50⟩) ++ sideRuns .client 9 12 ++
    starts .client (.streamShutdown 1) ++ sideRuns .client 10 12 ++
    sends .client ++ sends .client ++ sends .client ++ sends .client ++
    receives .server 8 5 ++ receives .server 9 6 ++ receives .server 10 6 ++
    receives .server 11 5 ++ starts .server (.streamRead 1) ++ sideRuns .server 12 1 ++
    starts .server (.streamRead 1) ++ sideRuns .server 13 1 ++
    starts .server (.streamRead 1) ++ sideRuns .server 14 1

theorem sample_exchange : ∃ world stream, World.Run sampleConfig unrestricted world ∧
    stream ∈ (world.endpoint .server).engine.streams ∧
    stream.delivered = [⟨7, 100, 100⟩, ⟨8, 50, 50⟩] ∧ stream.endReported = true := by
  obtain ⟨world, hrun, hseen⟩ := World.Run.exists_of_follow sampleConfig unrestricted sampleExchange
    (fun world => (world.endpoint .server).engine.streams.map fun s => (s.delivered, s.endReported))
    [([⟨7, 100, 100⟩, ⟨8, 50, 50⟩], true)] (by decide +kernel)
  obtain ⟨stream, hstreams, hseen⟩ := map_eq_singleton_iff.mp hseen
  exact ⟨world, stream, hrun, by simp [hstreams], Prod.mk.inj hseen⟩

/-- In every run a read waits only while nothing is queued and no FIN came, and
the end is reported only after the FIN, with nothing left unread. -/
theorem end_reported_after_data (h : Endpoint.Run config guard endpoint)
    (hmem : stream ∈ endpoint.engine.streams) :
    (stream.pendingRead ≠ none → stream.inbound = [] ∧ stream.peerWriteClosed = false) ∧
    (stream.endReported = true → stream.inbound = [] ∧ stream.peerWriteClosed = true) := by
  have hread := h.streams (readSide_rule _) stream hmem
  exact ⟨hread.waits, fun hend => hread.ended (.inr hend)⟩

theorem end_reported_after_data_exchange : ∃ stream : Stream,
    stream.delivered.length = 2 ∧ stream.endReported = true ∧ stream.inbound = [] := by
  obtain ⟨world, stream, hrun, hmem, hdelivered, hend⟩ := sample_exchange
  exact ⟨stream, by simp [hdelivered], hend,
    ((end_reported_after_data (hrun.endpoint .server) hmem).2 hend).1⟩

/-- In every interleaving at most one pending section orders a record, at most one
processes a received record, and each of the two drains runs at most once. -/
theorem sections_exclusive (h : Endpoint.Run config guard endpoint) :
    weigh Call.lockRole endpoint.frames ≤ 1 ∧ weigh Call.receiveRole endpoint.frames ≤ 1 ∧
      weigh Call.controlsRole endpoint.frames ≤ 1 ∧ weigh Call.writesRole endpoint.frames ≤ 1 := by
  have hflag : ∀ held, flag held ≤ 1 := by decide
  obtain ⟨hcontrols, hwrites, hlock, hreceive⟩ := h.roles
  exact ⟨hlock ▸ hflag _, hreceive ▸ hflag _, hcontrols ▸ hflag _, hwrites ▸ hflag _⟩

/-- Credit arrives while the accepted stream's controls are drained.  Its section
drains the writes and orders the first one, so all four roles are held. -/
theorem sections_exclusive_all_held : ∃ endpoint : Endpoint,
    endpoint.engine.terminal = false ∧
    weigh Call.lockRole endpoint.frames = 1 ∧ weigh Call.receiveRole endpoint.frames = 1 ∧
      weigh Call.controlsRole endpoint.frames = 1 ∧ weigh Call.writesRole endpoint.frames = 1 := by
  obtain ⟨endpoint, hrun, hseen⟩ := Endpoint.Run.exists_of_follow (sampleConfig .server) unrestricted
    (twoWaiting 100 50 ++ runs 8 2 ++ [fromPeer 3 (.streamCredit 1 8192)] ++ runs 9 5)
    (fun endpoint => (endpoint.engine.terminal, [Call.lockRole, Call.receiveRole,
      Call.controlsRole, Call.writesRole].all fun role => decide (0 < weigh role endpoint.frames)))
    (false, true) (by decide +kernel)
  simp only [Prod.mk.injEq, all_cons, all_nil, Bool.and_true, Bool.and_eq_true,
    decide_eq_true_eq] at hseen
  obtain ⟨hlive, h1, h2, h3, h4⟩ := hseen
  obtain ⟨h5, h6, h7, h8⟩ := sections_exclusive hrun
  exact ⟨endpoint, hlive, Nat.le_antisymm h5 h1, Nat.le_antisymm h6 h2,
    Nat.le_antisymm h7 h3, Nat.le_antisymm h8 h4⟩

end Yume.Session
