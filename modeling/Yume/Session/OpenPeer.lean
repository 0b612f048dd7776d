/-
OPEN records reach the peer in the order of their stream IDs, so the peer never
sees an ID regress.
-/
import Mathlib.Data.List.Flatten
import Yume.Session.Link
import Yume.Session.OpenOrder

namespace Yume.Session

open Yume.Lib Engine List

theorem openIds_sorted_iff {log : List (RecordKeyToken × Record)} :
    (openIds log).Pairwise (· < ·) ↔
      log.Pairwise fun a b => ∀ x ∈ a.2.openIds, ∀ y ∈ b.2.openIds, x < y := by
  simp [openIds, pairwise_flatMap, Record.openIds_sorted]

/-- Records of one log with increasing sequence numbers open increasing
streams, if the log does. -/
theorem openIds_sorted_of_mem {log part : List (RecordKeyToken × Record)}
    (hlog : (openIds log).Pairwise (· < ·))
    (hnumbered : log.Pairwise fun a b => a.1.sequence < b.1.sequence)
    (hpart : part.Pairwise fun a b => a.1.sequence < b.1.sequence)
    (hmem : ∀ entry ∈ part, entry ∈ log) :
    (openIds part).Pairwise (· < ·) := by
  rw [openIds_sorted_iff] at hlog ⊢
  refine hpart.imp_of_mem fun {a b} ha hb hlt => ?_
  obtain ⟨i, hi, rfl⟩ := getElem_of_mem (hmem a ha)
  obtain ⟨j, hj, rfl⟩ := getElem_of_mem (hmem b hb)
  -- of two records of the log, the one with the smaller number comes first
  rcases Nat.lt_trichotomy i j with hij | rfl | hij
  · exact pairwise_iff_getElem.mp hlog i j hi hj hij
  · exact absurd hlt (Nat.lt_irrefl _)
  have := pairwise_iff_getElem.mp hnumbered j i hj hi hij
  exact absurd hlt (Nat.lt_asymm this)

theorem TokenLog.numbered {view : TokenView} (h : TokenLog view) :
    view.committed.Pairwise fun a b => a.1.sequence < b.1.sequence := by
  have := pairwise_lt_range (n := view.committed.length)
  rw [← h.sequences, pairwise_map] at this
  exact this

section Joined

variable {config : EndpointRole → Config} {world : World}

/-- What a receiver opened opens increasing streams, none of them zero. -/
theorem opened_opens (h : World.Run config opensInOrder world) (side : EndpointRole) :
    (openIds (world.endpoint side.peer).engine.history.opened).Pairwise (· < ·) ∧
      ∀ id ∈ openIds (world.endpoint side.peer).engine.history.opened, id ≠ 0 := by
  have hsender := h.endpoint side
  have hopens := hsender.opens
  obtain ⟨hlog, hheld⟩ := hsender.tokens
  have hmem : ∀ entry ∈ (world.endpoint side.peer).engine.history.opened,
      entry ∈ (world.endpoint side).engine.history.committed := fun entry hentry =>
    hheld.queued.subset (mem_append_left _ ((h.linked side).opened entry hentry))
  refine ⟨openIds_sorted_of_mem hopens.sorted hlog.numbered
    (h.endpoint side.peer).arrivals.sorted hmem, fun id hid => ?_⟩
  obtain ⟨entry, hentry, hopen⟩ := mem_openIds.mp hid
  exact hsender.names.nonzero id (hopens.owned id
    (mem_openIds.mpr ⟨entry, hmem entry hentry, hopen⟩)).1

/-- A peer's OPEN that is about to be processed names a new stream. -/
theorem opening_above (h : World.Run config opensInOrder world)
    {side : EndpointRole} {id : Nat} {request : OpenRequest}
    (hopen : .processOpen id request ∈ (world.endpoint side).frames) :
    (world.endpoint side).engine.lastPeerStreamId < id := by
  obtain ⟨hsorted, hnonzero⟩ := opened_opens h side.peer
  rw [show side.peer.peer = side by cases side <;> rfl] at hsorted hnonzero
  obtain ⟨done, hopened, hlast⟩ := (h.endpoint side).peerOpens
  have hid : id ∈ (world.endpoint side).frames.flatMap Call.opening :=
    mem_flatMap.mpr ⟨_, hopen, mem_cons_self⟩
  rw [hopened] at hsorted hnonzero
  rcases hlast with hzero | hdone
  · have := hnonzero id (mem_append_right _ hid)
    omega
  · exact (pairwise_append.mp hsorted).2.2 _ hdone _ hid

/-- The OPEN records of both sides enter their wire queues in increasing order,
and no OPEN of a peer is refused because its stream ID regressed. -/
theorem open_records_in_order (h : World.Run config opensInOrder world)
    (side : EndpointRole) :
    (openIds (world.endpoint side).engine.history.queued).Pairwise (· < ·) ∧
    ∀ id request, .processOpen id request ∈ (world.endpoint side).frames →
      (world.endpoint side).engine.openIdFailure id ≠
        some (protocolFailure "peer OPEN stream ID was reused or regressed") := by
  have hsender := h.endpoint side
  refine ⟨?_, fun id request hopen hfailure => ?_⟩
  · refine Pairwise.sublist ?_ hsender.opens.sorted
    exact ((sublist_append_left _ _).trans hsender.tokens.2.queued).flatMap _
  have habove := opening_above h hopen
  unfold openIdFailure at hfailure
  split_ifs at hfailure with hid hstate hregressed
  · simp [protocolFailure] at hfailure
  · simp [protocolFailure] at hfailure
  · omega

end Joined

/-- The client opens two streams one after the other, and the server is about
to process the second OPEN. -/
theorem open_records_in_order_sample :
    ∃ world : World,
      (world.endpoint .server).frames.flatMap Call.opening = [3] ∧
      (world.endpoint .server).engine.lastPeerStreamId = 1 ∧
      openIds (world.endpoint .client).engine.history.queued = [1, 3] ∧
      (openIds (world.endpoint .client).engine.history.queued).Pairwise
        (· < ·) := by
  obtain ⟨world, hrun, hseen⟩ := World.Run.exists_of_follow sampleConfig
    opensInOrder
    (sampleConnected ++
      starts .client (.asyncOpen sampleOpen) ++ sideRuns .client 5 8 ++
      starts .client (.asyncOpen sampleOpen) ++ sideRuns .client 6 8 ++
      sends .client ++ sends .client ++
      receives .server 5 4 ++ receives .server 6 1)
    (fun world => ((world.endpoint .server).frames.flatMap Call.opening,
      (world.endpoint .server).engine.lastPeerStreamId,
      openIds (world.endpoint .client).engine.history.queued))
    ([3], 1, [1, 3]) (by decide +kernel)
  simp only [Prod.mk.injEq] at hseen
  exact ⟨world, hseen.1, hseen.2.1, hseen.2.2,
    (open_records_in_order hrun .client).1⟩

/-- Two opens of the client.  The second one allocates its stream ID after the
first and publishes its OPEN before it, and the server refuses the first. -/
theorem open_overtakes_smaller_id :
    ∃ world, World.Run sampleConfig unrestricted world ∧
      openIds (world.endpoint .client).engine.history.queued = [3, 1] ∧
      (world.endpoint .server).frames.flatMap Call.opening = [1] ∧
      (world.endpoint .server).engine.openIdFailure 1 =
        some (protocolFailure "peer OPEN stream ID was reused or regressed") := by
  obtain ⟨world, hrun, hseen⟩ := World.Run.exists_of_follow sampleConfig
    unrestricted
    (sampleConnected ++
      starts .client (.asyncOpen sampleOpen) ++ sideRuns .client 5 1 ++
      starts .client (.asyncOpen sampleOpen) ++ sideRuns .client 6 8 ++
      sideRuns .client 5 7 ++ sends .client ++ sends .client ++
      receives .server 5 4 ++ receives .server 6 1)
    (fun world => (openIds (world.endpoint .client).engine.history.queued,
      (world.endpoint .server).frames.flatMap Call.opening,
      (world.endpoint .server).engine.openIdFailure 1))
    ([3, 1], [1],
      some (protocolFailure "peer OPEN stream ID was reused or regressed"))
    (by decide +kernel)
  simp only [Prod.mk.injEq] at hseen
  exact ⟨world, hrun, hseen⟩

end Yume.Session
