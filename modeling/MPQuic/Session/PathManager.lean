import MPQuic.Lib.Transition
import MPQuic.Wire.Frame

/-!
# The path manager

`createPath`, `createPathFromRemote` and `handleAddAddressFrame` of `path_manager.go`. Each side
numbers the paths it creates: those of the client are odd, those of the server even, and the initial
path has the number 0.

`createPathFromRemote` checks that there is no path with the number of the new one, `createPath`
does not: it takes `nxtPathID` and adds 2, on a `uint8`. After 128 paths the client is back at 1,
and after 127 paths the server is at 0, the number of the initial path. `createPath_keeps_iff` says
that a path is replaced exactly if all numbers of this side are taken.

The origin of a path is a ghost variable.
-/

namespace MPQuic

open Transition

/-- What `String` prints of an address: an IPv4 address has the same text in 4 and in 16 bytes. -/
def UDPAddr.string (a : UDPAddr) : List UInt8 × ℕ := (a.to16.getD a.ip, a.port)

/-- How a path came to be. -/
inductive PathOrigin where
  | initial
  | createPath
  | createPathFromRemote
  deriving DecidableEq

/-- A path with the addresses of its connection. -/
structure PathConn where
  pathID : PathID
  localAddr : UDPAddr
  remoteAddr : UDPAddr
  /-- How the path came to be. This is a ghost variable. -/
  origin : PathOrigin
  deriving DecidableEq

/-- The errors of the path manager. -/
inductive PathManagerError where
  | unknownIPVersion
  | alreadyExistingPath
  | oddPathID
  | evenPathID
  /-- The PING frame for the new path could not be sent. -/
  | sendPing
  deriving DecidableEq

/-- The path manager, with the paths of its session. -/
structure PathManager where
  perspective : Perspective
  nxtPathID : PathID
  remoteAddrs4 : List UDPAddr
  remoteAddrs6 : List UDPAddr
  /-- The local addresses of the connection manager. -/
  localAddrs : List UDPAddr
  /-- Whether the session creates paths of its own accord. -/
  createsPaths : Bool
  paths : PathID → Option PathConn

namespace PathManager

/-- The path manager of a new session. -/
def setup (perspective : Perspective) (localAddrs : List UDPAddr) (createsPaths : Bool)
    (localAddr remoteAddr : UDPAddr) : PathManager where
  perspective := perspective
  nxtPathID :=
    match perspective with
    | .client => 1
    | .server => 2
  remoteAddrs4 := if remoteAddr.to4.isSome then [remoteAddr] else []
  remoteAddrs6 := if remoteAddr.to4.isSome then [] else [remoteAddr]
  localAddrs := localAddrs
  createsPaths := createsPaths
  paths := Function.update (fun _ => none) initialPathID
    (some { pathID := initialPathID, localAddr, remoteAddr, origin := .initial })

/-- All path identifiers. -/
def pathIDs : List PathID := (List.range 256).map UInt8.ofNat

theorem mem_pathIDs (pathID : PathID) : pathID ∈ pathIDs :=
  List.mem_map.mpr ⟨pathID.toNat, List.mem_range.mpr pathID.toNat_lt, UInt8.ofNat_toNat⟩

/-- Whether there is a path between these addresses. -/
def hasPath (pm : PathManager) (locAddr remAddr : UDPAddr) : Bool :=
  pathIDs.any fun pathID => (pm.paths pathID).any fun pth =>
    pth.localAddr.string = locAddr.string ∧ pth.remoteAddr.string = remAddr.string

/-- Create a path between two addresses, unless there is one. The PING frame for the path is sent
after it was added. -/
def createPath (pm : PathManager) (sendPing : Bool) (locAddr remAddr : UDPAddr) :
    Option PathManagerError × PathManager :=
  if pm.hasPath locAddr remAddr then (none, pm)
  else
    let pth : PathConn :=
      { pathID := pm.nxtPathID, localAddr := locAddr, remoteAddr := remAddr, origin := .createPath }
    (if sendPing then none else some .sendPing,
      { pm with
        paths := Function.update pm.paths pm.nxtPathID (some pth)
        nxtPathID := pm.nxtPathID + 2 })

/-- The pairs of addresses of the same IP version. -/
def addrPairs (pm : PathManager) : List (UDPAddr × UDPAddr) :=
  pm.localAddrs.flatMap fun locAddr =>
    (if locAddr.to4.isSome then pm.remoteAddrs4 else pm.remoteAddrs6).map (locAddr, ·)

/-- Create a path for each pair of addresses, up to the first error. -/
def createPathsFor (sendPing : UDPAddr × UDPAddr → Bool) :
    PathManager → List (UDPAddr × UDPAddr) → Option PathManagerError × PathManager
  | pm, [] => (none, pm)
  | pm, addrs :: rest =>
    match pm.createPath (sendPing addrs) addrs.1 addrs.2 with
    | (some e, pm) => (some e, pm)
    | (none, pm) => createPathsFor sendPing pm rest

/-- Create the paths that are possible. -/
def createPaths (pm : PathManager) (sendPing : UDPAddr × UDPAddr → Bool) :
    Option PathManagerError × PathManager :=
  createPathsFor sendPing pm pm.addrPairs

/-- A packet was received for a path that does not exist. -/
def createPathFromRemote (pm : PathManager) (pathID : PathID) (locAddr remAddr : UDPAddr) :
    Option PathManagerError × PathManager :=
  if (pm.paths pathID).isSome then (some .alreadyExistingPath, pm)
  -- odd is client initiated, even for server initiated
  else if pm.perspective = .client ∧ pathID % 2 ≠ 0 then (some .oddPathID, pm)
  else if pm.perspective = .server ∧ pathID % 2 = 0 then (some .evenPathID, pm)
  else
    let pth : PathConn :=
      { pathID, localAddr := locAddr, remoteAddr := remAddr, origin := .createPathFromRemote }
    (none, { pm with paths := Function.update pm.paths pathID (some pth) })

/-- Add the address of an ADD_ADDRESS frame to those of the peer. -/
def addRemoteAddr (pm : PathManager) (f : AddAddressFrame) : Option PathManager :=
  if f.ipVersion = 4 then some { pm with remoteAddrs4 := pm.remoteAddrs4 ++ [f.addr] }
  else if f.ipVersion = 6 then some { pm with remoteAddrs6 := pm.remoteAddrs6 ++ [f.addr] }
  else none

/-- An ADD_ADDRESS frame was received. -/
def handleAddAddressFrame (pm : PathManager) (sendPing : UDPAddr × UDPAddr → Bool)
    (f : AddAddressFrame) : Option PathManagerError × PathManager :=
  match pm.addRemoteAddr f with
  | none => (some .unknownIPVersion, pm)
  | some pm => if pm.createsPaths then pm.createPaths sendPing else (none, pm)

/-! ## Calls -/

/-- A call of the path manager. -/
inductive PathCall where
  | addRemoteAddr (f : AddAddressFrame)
  | createPath (sendPing : Bool) (locAddr remAddr : UDPAddr)
  | createPathFromRemote (pathID : PathID) (locAddr remAddr : UDPAddr)

/-- What a call does. -/
def apply (pm : PathManager) : PathCall → PathManager
  | .addRemoteAddr f => (pm.addRemoteAddr f).getD pm
  | .createPath sendPing locAddr remAddr => (pm.createPath sendPing locAddr remAddr).2
  | .createPathFromRemote pathID locAddr remAddr =>
    (pm.createPathFromRemote pathID locAddr remAddr).2

theorem createPathsFor_eq_foldl (sendPing : UDPAddr × UDPAddr → Bool) (pm : PathManager)
    (addrs : List (UDPAddr × UDPAddr)) :
    ∃ calls : List PathCall, (createPathsFor sendPing pm addrs).2 = calls.foldl apply pm := by
  induction addrs generalizing pm with
  | nil => exact ⟨[], rfl⟩
  | cons a rest ih =>
    have happly : (pm.createPath (sendPing a) a.1 a.2).2 =
        pm.apply (.createPath (sendPing a) a.1 a.2) := rfl
    unfold createPathsFor
    split
    · next e pm' hcreate =>
      rw [hcreate] at happly
      exact ⟨[.createPath (sendPing a) a.1 a.2], happly⟩
    · next pm' hcreate =>
      rw [hcreate] at happly
      obtain ⟨calls, hcalls⟩ := ih pm'
      refine ⟨.createPath (sendPing a) a.1 a.2 :: calls, ?_⟩
      rw [hcalls, List.foldl_cons, ← happly]

/-- An ADD_ADDRESS frame leads to calls of `createPath`. -/
theorem handleAddAddressFrame_eq_foldl (pm : PathManager) (sendPing : UDPAddr × UDPAddr → Bool)
    (f : AddAddressFrame) :
    ∃ calls : List PathCall, (pm.handleAddAddressFrame sendPing f).2 = calls.foldl apply pm := by
  unfold handleAddAddressFrame
  split
  · exact ⟨[], rfl⟩
  · next pm' hadd =>
    have happly : pm' = pm.apply (.addRemoteAddr f) := by rw [apply, hadd, Option.getD_some]
    split
    · obtain ⟨calls, hcalls⟩ := createPathsFor_eq_foldl sendPing pm' pm'.addrPairs
      exact ⟨.addRemoteAddr f :: calls, by rw [createPaths, hcalls, happly, List.foldl_cons]⟩
    · exact ⟨[.addRemoteAddr f], happly⟩

/-- No path is removed. -/
theorem isSome_paths_apply {pm : PathManager} {pathID : PathID} (hsome : (pm.paths pathID).isSome)
    (call : PathCall) : ((pm.apply call).paths pathID).isSome := by
  -- a path may be replaced, but by another path
  have hupdate : ∀ q pth, (Function.update pm.paths q (some pth) pathID).isSome := by
    intro q pth
    rw [Function.update_apply]
    split_ifs
    · rfl
    · exact hsome
  cases call with
  | addRemoteAddr f =>
    unfold apply addRemoteAddr
    dsimp only
    split_ifs <;> exact hsome
  | createPath sendPing locAddr remAddr =>
    unfold apply createPath
    dsimp only
    split
    · exact hsome
    · exact hupdate _ _
  | createPathFromRemote q locAddr remAddr =>
    unfold apply createPathFromRemote
    dsimp only
    split_ifs
    · exact hsome
    · exact hsome
    · exact hsome
    · exact hupdate _ _

theorem isSome_paths_handleAddAddressFrame {pm : PathManager} {pathID : PathID}
    (hsome : (pm.paths pathID).isSome) (sendPing : UDPAddr × UDPAddr → Bool)
    (f : AddAddressFrame) : ((pm.handleAddAddressFrame sendPing f).2.paths pathID).isSome := by
  obtain ⟨calls, hcalls⟩ := pm.handleAddAddressFrame_eq_foldl sendPing f
  rw [hcalls]
  exact List.foldlRecOn calls apply (motive := fun pm => (pm.paths pathID).isSome) hsome
    fun pm h call _ => isSome_paths_apply h call

/-! ## Numbers -/

end PathManager

/-- The numbers that a side gives to the paths it creates. -/
def Perspective.Owns : Perspective → PathID → Prop
  | .client, pathID => pathID.toNat % 2 = 1
  | .server, pathID => pathID.toNat % 2 = 0 ∧ pathID ≠ initialPathID

/-- A path is numbered by the side that created it. -/
def PathConn.Numbered (perspective : Perspective) (pth : PathConn) : Prop :=
  match pth.origin with
  | .initial => pth.pathID = initialPathID
  | .createPath => perspective.Owns pth.pathID
  | .createPathFromRemote => perspective.peer.Owns pth.pathID

/-- No path is replaced. -/
def PathManager.Keeps (pm pm' : PathManager) : Prop :=
  ∀ pathID pth, pm.paths pathID = some pth → pm'.paths pathID = some pth

namespace PathManager

/-- A path may be created: there is one between these addresses already, or this side has a number
left. -/
def Room (pm : PathManager) : PathCall → Prop
  | .createPath _ locAddr remAddr =>
    pm.hasPath locAddr remAddr = true ∨
      ∃ pathID, pm.perspective.Owns pathID ∧ pm.paths pathID = none
  | _ => True

/-- The first number of a side. -/
def first : Perspective → ℕ
  | .client => 1
  | .server => 2

/-- How many numbers a side has. -/
def limit : Perspective → ℕ
  | .client => 128
  | .server => 127

/-- The paths of the session when this side has created `k` of them. -/
structure Inv (initial : PathConn) (k : ℕ) (pm : PathManager) : Prop where
  le_limit : k ≤ limit pm.perspective
  nxtPathID : pm.nxtPathID = UInt8.ofNat (first pm.perspective + 2 * k)
  taken : ∀ pathID, pm.perspective.Owns pathID →
    ((pm.paths pathID).isSome ↔ pathID.toNat < first pm.perspective + 2 * k)
  initial : pm.paths initialPathID = some initial
  pathID : ∀ pathID pth, pm.paths pathID = some pth → pth.pathID = pathID
  numbered : ∀ pathID pth, pm.paths pathID = some pth → pth.Numbered pm.perspective

theorem owns_iff (perspective : Perspective) (pathID : PathID) :
    perspective.Owns pathID ↔
      first perspective ≤ pathID.toNat ∧ pathID.toNat % 2 = first perspective % 2 := by
  have hzero : pathID ≠ initialPathID ↔ pathID.toNat ≠ 0 :=
    not_congr (UInt8.toNat_inj (b := initialPathID)).symm
  cases perspective with
  | client =>
    simp only [Perspective.Owns, first]
    omega
  | server =>
    simp only [Perspective.Owns, first, hzero]
    omega

variable {perspective : Perspective} {pathID : PathID}

theorem lt_of_owns (howns : perspective.Owns pathID) :
    pathID.toNat < first perspective + 2 * limit perspective := by
  have hlt := pathID.toNat_lt
  cases perspective <;> simp only [first, limit] <;> omega

/-- The numbers of a side are those below 256. -/
theorem lt_of_lt_limit {k : ℕ} (hk : k < limit perspective) :
    first perspective + 2 * k < 256 := by
  cases perspective <;> simp only [first, limit] at hk ⊢ <;> omega

theorem not_owns_initialPathID (perspective : Perspective) : ¬ perspective.Owns initialPathID := by
  cases perspective with
  | client => nofun
  | server => exact fun h => h.2 rfl

/-- The two sides have different numbers. -/
theorem not_owns_of_peer (hpeer : perspective.peer.Owns pathID) : ¬ perspective.Owns pathID := by
  rw [owns_iff] at hpeer ⊢
  cases perspective <;> simp only [first, Perspective.peer] at hpeer ⊢ <;> omega

variable {pm : PathManager} {initial : PathConn} {k : ℕ}

theorem hasPath_iff {locAddr remAddr : UDPAddr} :
    pm.hasPath locAddr remAddr = true ↔ ∃ pathID pth, pm.paths pathID = some pth ∧
      pth.localAddr.string = locAddr.string ∧ pth.remoteAddr.string = remAddr.string := by
  simp only [hasPath, List.any_eq_true, Option.any_eq_true, decide_eq_true_eq]
  constructor
  · rintro ⟨pathID, -, pth, hpth, haddr⟩
    exact ⟨pathID, pth, hpth, haddr⟩
  · rintro ⟨pathID, pth, hpth, haddr⟩
    exact ⟨pathID, mem_pathIDs pathID, pth, hpth, haddr⟩

/-- As long as this side has a number left, the next one is free. -/
theorem Inv.nxtPathID_free (hinv : pm.Inv initial k) (hk : k < limit pm.perspective) :
    pm.nxtPathID.toNat = first pm.perspective + 2 * k ∧ pm.perspective.Owns pm.nxtPathID ∧
      pm.paths pm.nxtPathID = none := by
  have hnat : pm.nxtPathID.toNat = first pm.perspective + 2 * k := by
    rw [hinv.nxtPathID, UInt8.toNat_ofNat_of_lt' (lt_of_lt_limit hk)]
  have howns : pm.perspective.Owns pm.nxtPathID := (owns_iff _ _).mpr (by omega)
  refine ⟨hnat, howns, Option.not_isSome_iff_eq_none.mp ?_⟩
  rw [hinv.taken _ howns, hnat]
  exact lt_irrefl _

theorem Inv.exists_free_iff (hinv : pm.Inv initial k) :
    (∃ pathID, pm.perspective.Owns pathID ∧ pm.paths pathID = none) ↔ k < limit pm.perspective := by
  constructor
  · rintro ⟨pathID, howns, hnone⟩
    have htaken := (hinv.taken pathID howns).not.mp (by simp [hnone])
    have hlt := lt_of_owns howns
    omega
  · intro hk
    obtain ⟨-, howns, hnone⟩ := hinv.nxtPathID_free hk
    exact ⟨_, howns, hnone⟩

/-- When this side has no number left, there is a path with the next one: the first path of the
client, or the initial path of the server. -/
theorem Inv.nxtPathID_taken (hinv : pm.Inv initial k) (hk : ¬ k < limit pm.perspective) :
    ∃ pth, pm.paths pm.nxtPathID = some pth := by
  obtain rfl : k = limit pm.perspective := le_antisymm hinv.le_limit (not_lt.mp hk)
  have hnxt := hinv.nxtPathID
  have htaken := hinv.taken 1
  cases hp : pm.perspective with
  | client =>
    rw [hp] at hnxt htaken
    rw [hnxt]
    exact Option.isSome_iff_exists.mp ((htaken rfl).mpr (by decide))
  | server =>
    rw [hp] at hnxt
    exact ⟨initial, hnxt ▸ hinv.initial⟩

variable {pm' : PathManager} {q : PathID} {new : PathConn}

/-- The path map with a new path. -/
theorem paths_update_cases (hpaths : pm'.paths = Function.update pm.paths q (some new))
    {pth : PathConn} (hpth : pm'.paths pathID = some pth) :
    pathID = q ∧ pth = new ∨ pathID ≠ q ∧ pm.paths pathID = some pth := by
  by_cases hq : pathID = q
  · rw [hpaths, hq, Function.update_self] at hpth
    exact .inl ⟨hq, (Option.some.inj hpth).symm⟩
  · rw [hpaths, Function.update_of_ne hq] at hpth
    exact .inr ⟨hq, hpth⟩

/-- A path that is created with a free number replaces no path. -/
theorem keeps_of_free (hpaths : pm'.paths = Function.update pm.paths q (some new))
    (hfree : pm.paths q = none) :
    pm.Keeps pm' := by
  intro pathID pth hpth
  have hne : pathID ≠ q := by
    rintro rfl
    rw [hfree] at hpth
    cases hpth
  rw [hpaths, Function.update_of_ne hne, hpth]

/-- The invariant after a path was added with a free number. -/
theorem Inv.add {pm' : PathManager} {q : PathID} {new : PathConn} {k' : ℕ}
    (hinv : pm.Inv initial k) (hperspective : pm'.perspective = pm.perspective)
    (hpaths : pm'.paths = Function.update pm.paths q (some new)) (hfree : pm.paths q = none)
    (hid : new.pathID = q) (hnumbered : new.Numbered pm.perspective)
    (hle : k' ≤ limit pm.perspective)
    (hnxt : pm'.nxtPathID = UInt8.ofNat (first pm.perspective + 2 * k'))
    (htaken : ∀ pathID, pm.perspective.Owns pathID → pathID ≠ q →
      (pathID.toNat < first pm.perspective + 2 * k ↔ pathID.toNat < first pm.perspective + 2 * k'))
    (hq : pm.perspective.Owns q → q.toNat < first pm.perspective + 2 * k') :
    pm'.Inv initial k' where
  le_limit := hperspective ▸ hle
  nxtPathID := hperspective ▸ hnxt
  taken pathID howns := by
    rw [hperspective] at howns ⊢
    by_cases h : pathID = q
    · subst h
      rw [hpaths, Function.update_self]
      exact iff_of_true rfl (hq howns)
    · rw [hpaths, Function.update_of_ne h, hinv.taken pathID howns, htaken pathID howns h]
  initial := keeps_of_free hpaths hfree _ _ hinv.initial
  pathID pathID pth hpth := by
    obtain ⟨rfl, rfl⟩ | ⟨-, hold⟩ := paths_update_cases hpaths hpth
    · exact hid
    · exact hinv.pathID pathID pth hold
  numbered pathID pth hpth := by
    rw [hperspective]
    obtain ⟨rfl, rfl⟩ | ⟨-, hold⟩ := paths_update_cases hpaths hpth
    · exact hnumbered
    · exact hinv.numbered pathID pth hold

/-- `createPath` takes the next number. -/
theorem Inv.createPath (hinv : pm.Inv initial k) (hk : k < limit pm.perspective)
    {locAddr remAddr : UDPAddr} (hnew : ¬ pm.hasPath locAddr remAddr = true) (sendPing : Bool) :
    (pm.createPath sendPing locAddr remAddr).2.Inv initial (k + 1) ∧
      pm.Keeps (pm.createPath sendPing locAddr remAddr).2 := by
  obtain ⟨hnat, howns, hfree⟩ := hinv.nxtPathID_free hk
  rw [PathManager.createPath, if_neg hnew]
  refine ⟨hinv.add rfl rfl hfree rfl howns hk ?_ (fun pathID howns hne => ?_) fun _ => ?_,
    keeps_of_free rfl hfree⟩
  · -- the counter wraps at 256, as `UInt8.ofNat` does
    change pm.nxtPathID + 2 = _
    rw [hinv.nxtPathID, mul_add, ← add_assoc]
    exact (UInt8.ofNat_add _ 2).symm
  · have hne : pathID.toNat ≠ first pm.perspective + 2 * k :=
      fun h => hne (UInt8.toNat_inj.mp (h.trans hnat.symm))
    rw [owns_iff] at howns
    omega
  · omega

/-- Without a number left, `createPath` replaces a path: there is no path between its addresses, so
the new path is a different one. -/
theorem Inv.not_keeps_createPath (hinv : pm.Inv initial k) (hk : ¬ k < limit pm.perspective)
    {locAddr remAddr : UDPAddr} (hnew : ¬ pm.hasPath locAddr remAddr = true) (sendPing : Bool) :
    ¬ pm.Keeps (pm.createPath sendPing locAddr remAddr).2 := by
  intro hkeeps
  obtain ⟨pth, hpth⟩ := hinv.nxtPathID_taken hk
  have hsame := hkeeps _ _ hpth
  rw [PathManager.createPath, if_neg hnew] at hsame
  dsimp only at hsame
  rw [Function.update_self] at hsame
  obtain rfl := Option.some.inj hsame
  exact hnew (hasPath_iff.mpr ⟨_, _, hpth, rfl, rfl⟩)

/-- The number of a path that the peer created is checked. -/
theorem Inv.createPathFromRemote (hinv : pm.Inv initial k) (pathID : PathID)
    (locAddr remAddr : UDPAddr) :
    (pm.createPathFromRemote pathID locAddr remAddr).2.Inv initial k ∧
      pm.Keeps (pm.createPathFromRemote pathID locAddr remAddr).2 := by
  unfold PathManager.createPathFromRemote
  split_ifs with hsome hodd heven
  · exact ⟨hinv, fun _ _ => id⟩
  · exact ⟨hinv, fun _ _ => id⟩
  · exact ⟨hinv, fun _ _ => id⟩
  · -- the three checks leave only a free number of the peer's parity
    have hfree : pm.paths pathID = none := Option.not_isSome_iff_eq_none.mp hsome
    have hpeer : pm.perspective.peer.Owns pathID := by
      have hinitial : pathID ≠ initialPathID := by
        rintro rfl
        exact hsome (hinv.initial ▸ rfl)
      have hmod : (pathID % 2).toNat = pathID.toNat % 2 := UInt8.toNat_mod ..
      cases hp : pm.perspective with
      | client =>
        rw [hp, not_and_not_right] at hodd
        exact ⟨by rw [← hmod, hodd rfl]; rfl, hinitial⟩
      | server =>
        have hne : (pathID % 2).toNat ≠ 0 := fun h => heven ⟨hp, UInt8.toNat_inj.mp h⟩
        change pathID.toNat % 2 = 1
        omega
    exact ⟨hinv.add rfl rfl hfree rfl hpeer hinv.le_limit hinv.nxtPathID (fun _ _ _ => Iff.rfl)
      fun howns => absurd howns (not_owns_of_peer hpeer), keeps_of_free rfl hfree⟩

theorem Inv.setup (perspective : Perspective) (localAddrs : List UDPAddr) (createsPaths : Bool)
    (localAddr remoteAddr : UDPAddr) :
    (setup perspective localAddrs createsPaths localAddr remoteAddr).Inv
      ⟨initialPathID, localAddr, remoteAddr, .initial⟩ 0 := by
  have hpaths : ∀ pathID pth,
      (PathManager.setup perspective localAddrs createsPaths localAddr remoteAddr).paths pathID =
        some pth →
      pathID = initialPathID ∧ pth = ⟨initialPathID, localAddr, remoteAddr, .initial⟩ := by
    intro pathID pth hpth
    simp only [PathManager.setup, Function.update_apply] at hpth
    split_ifs at hpth with hid
    exact ⟨hid, (Option.some.inj hpth).symm⟩
  refine ⟨Nat.zero_le _, ?_, fun pathID howns => ?_, rfl, ?_, ?_⟩
  · cases perspective <;> rfl
  · refine iff_of_false (fun hsome => ?_) (not_lt.mpr ((owns_iff _ _).mp howns).1)
    obtain ⟨pth, hpth⟩ := Option.isSome_iff_exists.mp hsome
    obtain ⟨rfl, -⟩ := hpaths pathID pth hpth
    exact not_owns_initialPathID _ howns
  · intro pathID pth hpth
    obtain ⟨rfl, rfl⟩ := hpaths pathID pth hpth
    rfl
  · intro pathID pth hpth
    obtain ⟨rfl, rfl⟩ := hpaths pathID pth hpth
    rfl

theorem Inv.addRemoteAddr (hinv : pm.Inv initial k) (f : AddAddressFrame) :
    (pm.apply (.addRemoteAddr f)).Inv initial k ∧ pm.Keeps (pm.apply (.addRemoteAddr f)) := by
  obtain ⟨hle, hnxt, htaken, hinitial, hid, hnumbered⟩ := hinv
  unfold apply PathManager.addRemoteAddr
  dsimp only
  split_ifs
  · exact ⟨⟨hle, hnxt, htaken, hinitial, hid, hnumbered⟩, fun _ _ => id⟩
  · exact ⟨⟨hle, hnxt, htaken, hinitial, hid, hnumbered⟩, fun _ _ => id⟩
  · exact ⟨⟨hle, hnxt, htaken, hinitial, hid, hnumbered⟩, fun _ _ => id⟩

/-- A call replaces no path if and only if there is room, and then it keeps the invariant. -/
theorem Inv.apply (hinv : pm.Inv initial k) (call : PathCall) :
    (pm.Keeps (pm.apply call) ↔ pm.Room call) ∧
      (pm.Room call → ∃ k', (pm.apply call).Inv initial k') := by
  cases call with
  | addRemoteAddr f =>
    obtain ⟨hinv', hkeeps⟩ := hinv.addRemoteAddr f
    exact ⟨iff_of_true hkeeps trivial, fun _ => ⟨k, hinv'⟩⟩
  | createPath sendPing locAddr remAddr =>
    unfold Room PathManager.apply
    dsimp only
    rw [hinv.exists_free_iff]
    by_cases hnew : pm.hasPath locAddr remAddr = true
    · rw [PathManager.createPath, if_pos hnew]
      exact ⟨iff_of_true (fun _ _ => id) (.inl hnew), fun _ => ⟨k, hinv⟩⟩
    · by_cases hk : k < limit pm.perspective
      · obtain ⟨hinv', hkeeps⟩ := hinv.createPath hk hnew sendPing
        exact ⟨iff_of_true hkeeps (.inr hk), fun _ => ⟨k + 1, hinv'⟩⟩
      · have hfull : ¬ (pm.hasPath locAddr remAddr = true ∨ k < limit pm.perspective) :=
          not_or.mpr ⟨hnew, hk⟩
        exact ⟨iff_of_false (hinv.not_keeps_createPath hk hnew sendPing) hfull,
          fun h => absurd h hfull⟩
  | createPathFromRemote pathID locAddr remAddr =>
    obtain ⟨hinv', hkeeps⟩ := hinv.createPathFromRemote pathID locAddr remAddr
    exact ⟨iff_of_true hkeeps trivial, fun _ => ⟨k, hinv'⟩⟩

theorem perspective_apply (pm : PathManager) (call : PathCall) :
    (pm.apply call).perspective = pm.perspective := by
  cases call with
  | addRemoteAddr f =>
    unfold apply addRemoteAddr
    dsimp only
    split_ifs <;> rfl
  | createPath sendPing locAddr remAddr =>
    unfold apply createPath
    dsimp only
    split_ifs <;> rfl
  | createPathFromRemote pathID locAddr remAddr =>
    unfold apply createPathFromRemote
    dsimp only
    split_ifs <;> rfl

/-- In every run in which paths are created only while there is room, the initial path stays and
every path is numbered by the side that created it; and a further call replaces no path if and only
if there is room. -/
theorem createPath_keeps_iff {perspective : Perspective} {localAddrs : List UDPAddr}
    {createsPaths : Bool} {localAddr remoteAddr : UDPAddr} {calls : List PathCall}
    (hrun : Run (fun pm call pm' => pm.Room call ∧ pm' = pm.apply call)
      (setup perspective localAddrs createsPaths localAddr remoteAddr) calls pm) :
    pm.paths initialPathID = some ⟨initialPathID, localAddr, remoteAddr, .initial⟩ ∧
    (∀ pathID pth, pm.paths pathID = some pth →
      pth.pathID = pathID ∧ pth.Numbered perspective) ∧
    ∀ call, pm.Keeps (pm.apply call) ↔ pm.Room call := by
  obtain ⟨⟨k, hinv⟩, rfl⟩ : (∃ k, pm.Inv ⟨initialPathID, localAddr, remoteAddr, .initial⟩ k) ∧
      pm.perspective = perspective := by
    refine hrun.invariant (I := fun _ pm =>
      (∃ k, pm.Inv ⟨initialPathID, localAddr, remoteAddr, .initial⟩ k) ∧
        pm.perspective = perspective) ⟨⟨0, Inv.setup ..⟩, rfl⟩ ?_
    rintro - pm call - ⟨⟨k, hinv⟩, hperspective⟩ ⟨hroom, rfl⟩
    exact ⟨(hinv.apply call).2 hroom, (perspective_apply pm call).trans hperspective⟩
  exact ⟨hinv.initial, fun pathID pth hpth => ⟨hinv.pathID _ _ hpth, hinv.numbered _ _ hpth⟩,
    fun call => (hinv.apply call).1⟩

/-! ## Running out of numbers -/

/-- An address of the peer. -/
def peerAddr (port : ℕ) : UDPAddr := { ip := [10, 0, 0, 2], port }

/-- A local address. -/
def ownAddr : UDPAddr := { ip := [10, 0, 0, 1], port := 6121 }

/-- A session that has created `n` paths, each to another port. -/
@[irreducible]
def filled (perspective : Perspective) (n : ℕ) : PathManager :=
  ((List.range n).map fun i => PathCall.createPath true ownAddr (peerAddr (i + 1))).foldl apply
    (setup perspective [ownAddr] true ownAddr (peerAddr 0))

theorem filled_zero (perspective : Perspective) :
    filled perspective 0 = setup perspective [ownAddr] true ownAddr (peerAddr 0) := by
  simp only [filled, List.range_zero, List.map_nil, List.foldl_nil]

theorem filled_succ (perspective : Perspective) (n : ℕ) :
    filled perspective (n + 1) =
      (filled perspective n).apply (.createPath true ownAddr (peerAddr (n + 1))) := by
  simp only [filled, List.range_succ, List.map_append, List.foldl_append, List.map_cons,
    List.map_nil, List.foldl_cons, List.foldl_nil]

theorem not_hasPath_peerAddr {n : ℕ}
    (hport : ∀ pathID pth, pm.paths pathID = some pth → pth.remoteAddr.port ≤ n) :
    ¬ pm.hasPath ownAddr (peerAddr (n + 1)) = true := by
  rw [hasPath_iff]
  rintro ⟨pathID, pth, hpth, -, hstring⟩
  have hlt := hport pathID pth hpth
  have heq : pth.remoteAddr.port = n + 1 := congrArg Prod.snd hstring
  omega

/-- The paths of such a session lead to the ports up to `n`, so that the next port is new. -/
theorem inv_filled (perspective : Perspective) {n : ℕ} (hn : n ≤ limit perspective) :
    (filled perspective n).perspective = perspective ∧
      (filled perspective n).Inv ⟨initialPathID, ownAddr, peerAddr 0, .initial⟩ n ∧
      ∀ pathID pth, (filled perspective n).paths pathID = some pth → pth.remoteAddr.port ≤ n := by
  induction n with
  | zero =>
    rw [filled_zero]
    refine ⟨rfl, .setup .., fun pathID pth hpth => ?_⟩
    simp only [setup, Function.update_apply] at hpth
    split_ifs at hpth
    rw [← Option.some.inj hpth]
    exact le_rfl
  | succ n ih =>
    obtain ⟨hperspective, hinv, hport⟩ := ih (Nat.le_of_succ_le hn)
    have hnew := not_hasPath_peerAddr hport
    rw [filled_succ]
    refine ⟨(perspective_apply _ _).trans hperspective,
      (hinv.createPath (by rw [hperspective]; exact hn) hnew true).1, fun pathID pth hpth => ?_⟩
    rw [apply, createPath, if_neg hnew] at hpth
    obtain ⟨-, rfl⟩ | ⟨-, hold⟩ := paths_update_cases rfl hpth
    · exact le_rfl
    · exact Nat.le_succ_of_le (hport pathID pth hold)

/-- The next path is put in the place of `nxtPathID`. -/
theorem paths_filled (perspective : Perspective) {n m : ℕ} (hn : n ≤ limit perspective)
    (hm : m = n + 1) (hq : UInt8.ofNat (first perspective + 2 * n) = q) :
    (filled perspective m).paths q = some ⟨q, ownAddr, peerAddr m, .createPath⟩ := by
  obtain ⟨hperspective, hinv, hport⟩ := inv_filled perspective hn
  have hnxt := hinv.nxtPathID
  rw [hperspective, hq] at hnxt
  rw [hm, filled_succ, apply, createPath, if_neg (not_hasPath_peerAddr hport), ← hnxt]
  exact Function.update_self ..

/-- The 129th path of a client replaces its first one, and the 128th path of a server replaces the
initial path. -/
theorem createPath_replaces :
    (filled .client 1).paths 1 = some ⟨1, ownAddr, peerAddr 1, .createPath⟩ ∧
      (filled .client 129).paths 1 = some ⟨1, ownAddr, peerAddr 129, .createPath⟩ ∧
      (filled .server 0).paths initialPathID =
        some ⟨initialPathID, ownAddr, peerAddr 0, .initial⟩ ∧
      (filled .server 128).paths initialPathID =
        some ⟨initialPathID, ownAddr, peerAddr 128, .createPath⟩ := by
  refine ⟨paths_filled .client (Nat.zero_le _) rfl rfl, paths_filled .client le_rfl rfl rfl, ?_,
    paths_filled .server le_rfl rfl rfl⟩
  rw [filled_zero]
  rfl

/-- The first path of a client stays when the second one is created. -/
theorem createPath_keeps_iff_example :
    (filled .client 1).paths 1 = some ⟨1, ownAddr, peerAddr 1, .createPath⟩ ∧
      (filled .client 1).Keeps (filled .client 2) := by
  have hrun : Run (fun pm call pm' => pm.Room call ∧ pm' = pm.apply call)
      (setup .client [ownAddr] true ownAddr (peerAddr 0))
      [.createPath true ownAddr (peerAddr 1)] (filled .client 1) :=
    Run.nil.snoc ⟨.inr ⟨1, rfl, rfl⟩, by rw [filled_succ, filled_zero]⟩
  obtain ⟨hperspective, hinv, -⟩ := inv_filled .client (n := 1) (by decide)
  refine ⟨paths_filled .client (Nat.zero_le _) rfl rfl, ?_⟩
  rw [filled_succ .client 1, (createPath_keeps_iff hrun).2.2]
  refine .inr (hinv.exists_free_iff.mpr ?_)
  rw [hperspective]
  decide

end PathManager

end MPQuic
