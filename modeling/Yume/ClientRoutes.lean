/-
The routes views that a client accepts from its entry, and the state file that
keeps their serial across restarts and crashes.
-/
import Yume.Lib.Hex
import Yume.Lib.Runs
import Yume.Session.Limits
import Yume.Ytp.Auth

namespace Yume.Runtime

open Yume.Lib Yume.Session Yume.Ytp

structure SavedState where
  cluster : Bytes
  serial : Nat
deriving DecidableEq

/-- What stands at the state file's path; a file that `read_state` refuses is only
known by the status it gives. -/
inductive StateFile where
  | absent
  | refused (status : Status)
  | holds (state : SavedState)

/-- The part of a verified routes view that its acceptance reads. -/
structure Routes where
  serial : Nat
  nodes : List Bytes

structure NativeCircuitCredentials where
  operatorKeyPem : Bytes
  cluster : Bytes
  entry : Bytes
  floor : Nat := 0
  saved : Nat := 0

def isFingerprint (value : Bytes) : Bool := value.length = 64 && value.all isLowerHex

def readState : StateFile → Except Status (Option SavedState)
  | .absent => .ok none
  | .refused status => .error status
  | .holds state =>
    if !isFingerprint state.cluster || state.serial = 0 then
      .error ⟨.invalidArgument, "the cluster state file is malformed"⟩
    else .ok (some state)

/-- How a save ends: before or after the new file has taken the old one's name, with
success, with a failure, or with the process. -/
inductive Save where
  | done
  | failed (replaced : Bool)
  | crashed (replaced : Bool)

/-- `write_state`: the file, and whether it reports success; `none` is a crash. -/
def writeState (file : StateFile) (state : SavedState) (save : Save) : StateFile × Option Bool :=
  if !isFingerprint state.cluster || state.serial = 0 then (file, some false)
  else match save with
    | .done => (.holds state, some true)
    | .failed replaced => (if replaced then .holds state else file, some false)
    | .crashed replaced => (if replaced then .holds state else file, none)

/-- The state file, the process that uses it, and the views accepted so far with
their clusters, the newest first. -/
structure Client where
  file : StateFile
  circuits : Option NativeCircuitCredentials := none
  accepted : List SavedState := []

section Model

-- `verify_routes` of a body, a signature and a key at a time, and the fingerprint of
-- a composite public key.
variable (verify : Bytes → Bytes → Bytes → Int → Except Status Routes)
  (fingerprint : Bytes → Except Status Bytes)

/-- The files of a kit that `load_circuits` reads. -/
structure Kit where
  operatorKey : Bytes
  entry : Bytes
  routes : Bytes
  routesSignature : Bytes

/-- The floor that the kit's own copy of the view gives. -/
def kitFloor (kit : Kit) (now : Int) : Except Status Nat :=
  match verify kit.routes kit.routesSignature kit.operatorKey now with
  | .ok view =>
    if view.nodes.contains kit.entry then .ok view.serial
    else .error ⟨.failedPrecondition, "the kit's routes view does not name its server"⟩
  | .error status => if status.code ≠ .failedPrecondition then .error status else .ok 0

def loadCircuits (kit : Kit) (file : StateFile) (now : Int) :
    Except Status NativeCircuitCredentials := do
  let cluster ← fingerprint kit.operatorKey
  let floor ← kitFloor verify kit now
  let circuits := { operatorKeyPem := kit.operatorKey, cluster, entry := kit.entry, floor }
  match ← readState file with
  | none => .ok circuits
  | some previous =>
    if previous.cluster ≠ cluster then
      .error ⟨.failedPrecondition,
        "the circuits state file names another cluster; remove it to use this one"⟩
    else .ok { circuits with
      saved := previous.serial, floor := max floor previous.serial }

/-- `accept_served_routes`: the file, what is left of the process and the answer. -/
def acceptServedRoutes (circuits : NativeCircuitCredentials) (file : StateFile)
    (served : Bytes) (now : Int) (save : Save) :
    StateFile × Option (NativeCircuitCredentials × Except Status Routes) :=
  let refuse (message : String) := some (circuits, .error ⟨.failedPrecondition, message⟩)
  if served.length ≤ compositeSignatureSize then
    (file, some (circuits,
      .error ⟨.invalidArgument, "the entry served a routes view without a body"⟩))
  else match verify (served.drop compositeSignatureSize) (served.take compositeSignatureSize)
      circuits.operatorKeyPem now with
    | .error status => (file, some (circuits, .error status))
    | .ok view =>
      let floor := max circuits.floor view.serial
      if view.serial < circuits.floor then
        (file, refuse "the entry served a routes view older than one this client has verified")
      else if !view.nodes.contains circuits.entry then
        (file, refuse "the entry served a routes view that does not name it")
      else if view.serial > circuits.saved then
        match writeState file ⟨circuits.cluster, view.serial⟩ save with
        | (file, none) => (file, none)
        | (file, some false) => (file, refuse "the circuits state file could not be written")
        | (file, some true) =>
          (file, some ({ circuits with saved := view.serial, floor }, .ok view))
      else (file, some ({ circuits with floor }, .ok view))

inductive Client.Move where
  | load (kit : Kit) (now : Int)
  | serve (served : Bytes) (now : Int) (save : Save)
  | stop

/-- Processes run one after another, and one may stop or crash at any time. -/
def Client.step (client : Client) : Client.Move → Option Client
  | .load kit now =>
    if client.circuits.isSome then none
    else some { client with
      circuits := (loadCircuits verify fingerprint kit client.file now).toOption }
  | .serve served now save => client.circuits.map fun circuits =>
    match acceptServedRoutes verify circuits client.file served now save with
    | (file, none) => { client with file, circuits := none }
    | (file, some (circuits, .error _)) => { client with file, circuits }
    | (file, some (circuits, .ok view)) =>
      { file, circuits, accepted := ⟨circuits.cluster, view.serial⟩ :: client.accepted }
  | .stop => some { client with circuits := none }

end Model

section Invariant

variable {verify : Bytes → Bytes → Bytes → Int → Except Status Routes}
  {fingerprint : Bytes → Except Status Bytes} {client client' : Client}
  {circuits : NativeCircuitCredentials} {kit : Kit} {now : Int}

/-- The file and the process know of every view accepted so far. -/
structure Client.Sound (client : Client) : Prop where
  ordered : client.accepted.Pairwise fun later earlier =>
    later.cluster = earlier.cluster → earlier.serial ≤ later.serial
  onDisk : ∀ view ∈ client.accepted, 0 < view.serial →
    ∃ serial ≥ view.serial, client.file = .holds ⟨view.cluster, serial⟩
  known : ∀ circuits ∈ client.circuits, ∀ view ∈ client.accepted, 0 < view.serial →
    view.cluster = circuits.cluster ∧ view.serial ≤ circuits.saved
  saved : ∀ circuits ∈ client.circuits, 0 < circuits.saved →
    ∃ serial ≥ circuits.saved, client.file = .holds ⟨circuits.cluster, serial⟩
  floor : ∀ circuits ∈ client.circuits, circuits.saved ≤ circuits.floor

/-- A loaded process starts from the state file. -/
theorem loadCircuits_saved {file : StateFile}
    (h : loadCircuits verify fingerprint kit file now = .ok circuits) :
    circuits.saved ≤ circuits.floor ∧ (file = .absent ∧ circuits.saved = 0 ∨
      file = .holds ⟨circuits.cluster, circuits.saved⟩) := by
  simp only [loadCircuits, bind, Except.bind] at h
  split at h
  · cases h
  split at h
  · cases h
  cases file with
  | absent => grind [readState]
  | refused => cases h
  | holds state =>
    obtain ⟨cluster, serial⟩ := state
    grind [readState]

/-- What serving a view can do to the file and the process. -/
inductive Served (circuits : NativeCircuitCredentials) (file : StateFile) :
    StateFile × Option (NativeCircuitCredentials × Except Status Routes) → Prop where
  | refused {file' left} :
    file' = file ∨ (∃ serial > circuits.saved, file' = .holds ⟨circuits.cluster, serial⟩) →
    (∀ result ∈ left, ∃ status, result = (circuits, .error status)) →
    Served circuits file (file', left)
  | saved {view : Routes} : circuits.floor ≤ view.serial → circuits.saved < view.serial →
    Served circuits file (.holds ⟨circuits.cluster, view.serial⟩,
      some ({ circuits with saved := view.serial, floor := max circuits.floor view.serial },
        .ok view))
  | known {view : Routes} : circuits.floor ≤ view.serial → view.serial ≤ circuits.saved →
    Served circuits file (file,
      some ({ circuits with floor := max circuits.floor view.serial }, .ok view))

theorem acceptServedRoutes_served (file : StateFile) (served : Bytes) (save : Save) :
    Served circuits file (acceptServedRoutes verify circuits file served now save) := by
  have hsame (status : Status) : Served circuits file (file, some (circuits, .error status)) :=
    .refused (.inl rfl) (by simp)
  unfold acceptServedRoutes
  dsimp only
  split
  · exact hsame _
  split
  · exact hsame _
  split
  · exact hsame _
  split
  · exact hsame _
  split
  · rename_i view _ hfloor _ hsaved
    simp only [writeState]
    by_cases hvalid : (!isFingerprint circuits.cluster || decide (view.serial = 0)) = true
    · rw [if_pos hvalid]
      exact hsame _
    rw [if_neg hvalid]
    rcases save with _ | (_ | _) | (_ | _)
    · exact .saved (Nat.le_of_not_lt hfloor) hsaved
    · exact hsame _
    · exact .refused (.inr ⟨_, hsaved, rfl⟩) (by simp)
    · exact .refused (.inl rfl) (by simp)
    · exact .refused (.inr ⟨_, hsaved, rfl⟩) (by simp)
  · rename_i hfloor _ hsaved
    exact .known (Nat.le_of_not_lt hfloor) (Nat.le_of_not_lt hsaved)

theorem Client.Sound.step {move : Client.Move} (h : client.Sound)
    (hnext : client.step verify fingerprint move = some client') : client'.Sound := by
  cases move with
  | load kit now =>
    simp only [Client.step] at hnext
    split at hnext
    · cases hnext
    cases hnext
    cases hload : loadCircuits verify fingerprint kit client.file now with
    | error =>
      exact ⟨h.ordered, h.onDisk, nofun, nofun, nofun⟩
    | ok circuits =>
      obtain ⟨hfloor, hfile⟩ := loadCircuits_saved hload
      have hdisk := h.onDisk
      constructor <;> grind [Except.toOption, Client.Sound]
  | serve served now save =>
    obtain ⟨circuits, hcircuits, rfl⟩ := Option.map_eq_some_iff.mp hnext
    have hordered := h.ordered
    have hdisk := h.onDisk
    have hknown := h.known circuits hcircuits
    have hsaved := h.saved circuits hcircuits
    have hfloor := h.floor circuits hcircuits
    generalize hserved : acceptServedRoutes verify circuits client.file served now save = result
    cases hserved ▸ acceptServedRoutes_served client.file served save with
    | @refused _ left hfile hleft =>
      cases left with
      | none => constructor <;> grind
      | some result =>
        obtain ⟨status, rfl⟩ := hleft result rfl
        constructor <;> grind
    | saved hserial hsaved => constructor <;> grind [List.pairwise_cons]
    | known hserial hle => constructor <;> grind [List.pairwise_cons]
  | stop =>
    cases hnext
    exact ⟨h.ordered, h.onDisk, nofun, nofun, nofun⟩

end Invariant

/-- Over all processes that use one state file, whatever is served to them and
wherever they stop or crash, the serials of the accepted views of a cluster never
decrease. -/
theorem accepted_serials_never_decrease
    {verify : Bytes → Bytes → Bytes → Int → Except Status Routes}
    {fingerprint : Bytes → Except Status Bytes} {file : StateFile} {client : Client}
    (h : Reaches (Client.step verify fingerprint) (fun _ _ => True) { file } client) :
    client.accepted.Pairwise fun later earlier =>
      later.cluster = earlier.cluster → earlier.serial ≤ later.serial := by
  refine (h.invariant (P := Client.Sound) ?_ fun _ _ _ _ hsound _ hnext =>
    hsound.step hnext).ordered
  exact ⟨.nil, nofun, nofun, nofun, nofun⟩

/-- A view with a smaller serial is refused by the process that starts from the file. -/
theorem accepted_serials_never_decrease_restart : ∃ client : Client,
    client.accepted.map SavedState.serial = [3, 2] ∧ client.accepted.Pairwise fun later earlier =>
      later.cluster = earlier.cluster → earlier.serial ≤ later.serial := by
  have hrun : (runChecked (Client.step (fun body _ _ _ => .ok ⟨body.length, [[]]⟩)
      (fun _ => .ok (List.replicate 64 48))) (fun _ _ => true) { file := .absent }
      [.load ⟨[], [], [0], []⟩ 0, .serve (List.replicate 4693 0) 0 .done, .stop,
        .load ⟨[], [], [0], []⟩ 0, .serve (List.replicate 4692 0) 0 .done,
        .serve (List.replicate 4694 0) 0 .done]).any
      (fun client => client.accepted.map SavedState.serial == [3, 2]) = true := by decide +kernel
  obtain ⟨client, hreach, hclient⟩ := Reaches.exists_of_runChecked (fun _ _ _ => trivial) _ _ hrun
  exact ⟨client, by simpa using hclient, accepted_serials_never_decrease hreach⟩

end Yume.Runtime
