import PirMesh.Phone.LibTools

/-! # Phone — Secure Network beacons (`SigNetworkLayer.m`, `SigModel.m`)

The index used for sending is the text of the data source: the getter of a key builds its IV
index anew when that differs (`sendIndex_eq`).  A beacon below it is discarded, and any other
sets it to its own index, or to one less while an update is active.  So a beacon of an active
update that repeats the index takes one away (`ivIndex_runs`). -/

namespace PirMesh

open LibTools

inductive KeyRefreshPhase where
  | normalOperation
  | distributingKeys
  | finalizing
  deriving DecidableEq, Repr

structure SigIvIndex where
  index : BitVec 32
  updateActive : Bool
  deriving DecidableEq, Repr

structure SigNetkeyModel where
  key : Option (List Char)
  oldKey : Option (List Char)
  phase : KeyRefreshPhase
  ivIndex : Option SigIvIndex
  deriving DecidableEq, Repr

/-- `networkKey` is the key, of those of the data source, that authenticates the beacon. -/
structure SigSecureNetworkBeacon where
  networkKey : ℕ
  keyRefreshFlag : Bool
  ivUpdateActive : Bool
  ivIndex : BitVec 32
  deriving DecidableEq, Repr

namespace SigNetworkLayer

/-- The keys are objects: `curNetkeyModel` and a beacon may mean the same one. -/
structure DataSource where
  netKeys : ℕ → SigNetkeyModel
  curNetkeyModel : ℕ
  ivIndex : List Char

namespace DataSource

def setKey (s : DataSource) (k : ℕ) (f : SigNetkeyModel → SigNetkeyModel) : DataSource :=
  { s with netKeys := Function.update s.netKeys k (f (s.netKeys k)) }

/-- What the getter of the IV index returns for key `k`. -/
def keyIvIndex (s : DataSource) (k : ℕ) : SigIvIndex :=
  match (s.netKeys k).ivIndex with
  | some ivIndex =>
    if ivIndex.index = uint32From16String s.ivIndex then ivIndex
    else ⟨uint32From16String s.ivIndex, false⟩
  | none => ⟨uint32From16String s.ivIndex, false⟩

/-- The getter keeps what it returns. -/
def getIvIndex (s : DataSource) (k : ℕ) : DataSource :=
  s.setKey k fun m => { m with ivIndex := some (s.keyIvIndex k) }

/-- A write to the object that the getter returns. -/
def modifyIvIndex (s : DataSource) (k : ℕ) (f : SigIvIndex → SigIvIndex) : DataSource :=
  s.setKey k fun m => { m with ivIndex := some (f (s.keyIvIndex k)) }

def setIvIndex (s : DataSource) (ivIndex : List Char) : DataSource :=
  if ivIndex ≠ s.ivIndex then { s with ivIndex := ivIndex } else s

/-- The index that messages are sent with. -/
def sendIndex (s : DataSource) : BitVec 32 := (s.keyIvIndex s.curNetkeyModel).index

end DataSource

open DataSource

/-- The writes to the current key, with the text of the data source. -/
def setCurIvIndex (s : DataSource) (updateActive : Bool) (index : BitVec 32) : DataSource :=
  let s := s.modifyIvIndex s.curNetkeyModel fun i => { i with updateActive := updateActive }
  let s := s.modifyIvIndex s.curNetkeyModel fun i => { i with index := index }
  s.setIvIndex (format08X index)

/-- The key refresh phase follows the flag of the beacon. -/
def refreshPhase (b : SigSecureNetworkBeacon) (m : SigNetkeyModel) : SigNetkeyModel :=
  let m := if m.phase = .distributingKeys ∧ b.keyRefreshFlag then { m with phase := .finalizing }
    else m
  if m.phase = .finalizing ∧ !b.keyRefreshFlag then { m with oldKey := none } else m

/-- Whether the beacon is not discarded. -/
def BeaconAccepted (s : DataSource) (b : SigSecureNetworkBeacon) : Prop :=
  ¬ b.ivIndex < (s.keyIvIndex b.networkKey).index

instance (s : DataSource) (b : SigSecureNetworkBeacon) : Decidable (BeaconAccepted s b) :=
  inferInstanceAs (Decidable (¬ _))

/-- What an accepted beacon changes. -/
def acceptBeacon (s : DataSource) (b : SigSecureNetworkBeacon) : DataSource :=
  let s := s.setKey b.networkKey fun m =>
    { m with ivIndex := some ⟨b.ivIndex, b.ivUpdateActive⟩ }
  let s := s.setKey b.networkKey (refreshPhase b)
  let s :=
    if b.ivUpdateActive then
      if (s.keyIvIndex s.curNetkeyModel).index ≠ b.ivIndex - 1 then
        setCurIvIndex (s.getIvIndex s.curNetkeyModel) false (b.ivIndex - 1)
      else s.getIvIndex s.curNetkeyModel
    else setCurIvIndex s b.ivUpdateActive b.ivIndex
  if b.keyRefreshFlag then
    s.setKey s.curNetkeyModel fun m => { m with key := (s.netKeys b.networkKey).key }
  else s

def handleSecureNetworkBeacon (s : DataSource) (b : SigSecureNetworkBeacon) : DataSource :=
  if BeaconAccepted s b then acceptBeacon (s.getIvIndex b.networkKey) b
  else s.getIvIndex b.networkKey

/-- The data source after a run of beacons. -/
def afterBeacons (s : DataSource) (bs : List SigSecureNetworkBeacon) : DataSource :=
  bs.foldl handleSecureNetworkBeacon s

/-! ### The text of the data source -/

theorem keyIvIndex_index (s : DataSource) (k : ℕ) :
    (s.keyIvIndex k).index = uint32From16String s.ivIndex := by
  unfold DataSource.keyIvIndex
  split
  · split_ifs with h
    · exact h
    · rfl
  · rfl

theorem sendIndex_eq (s : DataSource) : s.sendIndex = uint32From16String s.ivIndex :=
  keyIvIndex_index s s.curNetkeyModel

@[simp]
theorem setKey_ivIndex (s : DataSource) (k : ℕ) (f : SigNetkeyModel → SigNetkeyModel) :
    (s.setKey k f).ivIndex = s.ivIndex := rfl

@[simp]
theorem getIvIndex_ivIndex (s : DataSource) (k : ℕ) : (s.getIvIndex k).ivIndex = s.ivIndex := rfl

@[simp]
theorem setIvIndex_ivIndex (s : DataSource) (ivIndex : List Char) :
    (s.setIvIndex ivIndex).ivIndex = ivIndex := by
  unfold DataSource.setIvIndex
  split_ifs with h
  · rfl
  · exact (not_not.mp h).symm

theorem setCurIvIndex_ivIndex (s : DataSource) (updateActive : Bool) (index : BitVec 32) :
    uint32From16String (setCurIvIndex s updateActive index).ivIndex = index := by
  unfold setCurIvIndex
  dsimp only
  rw [setIvIndex_ivIndex, uint32From16String_format]

/-- The index that an accepted beacon leads to. -/
def beaconIndex (b : SigSecureNetworkBeacon) : BitVec 32 :=
  if b.ivUpdateActive then b.ivIndex - 1 else b.ivIndex

theorem acceptBeacon_ivIndex (s : DataSource) (b : SigSecureNetworkBeacon) :
    uint32From16String (acceptBeacon s b).ivIndex = beaconIndex b := by
  have hkey : ∀ (t : DataSource) f, uint32From16String
      (if b.keyRefreshFlag then t.setKey t.curNetkeyModel f else t).ivIndex =
        uint32From16String t.ivIndex := by
    intro t f
    split_ifs
    · rfl
    · rfl
  unfold acceptBeacon beaconIndex
  dsimp only
  rw [hkey]
  by_cases hactive : b.ivUpdateActive
  · rw [if_pos hactive, if_pos hactive]
    split_ifs with hne
    · exact setCurIvIndex_ivIndex _ _ _
    · -- the index is there already
      rw [not_not, keyIvIndex_index] at hne
      exact hne
  · rw [if_neg hactive, if_neg hactive]
    exact setCurIvIndex_ivIndex _ _ _

theorem sendIndex_handle (s : DataSource) (b : SigSecureNetworkBeacon) :
    (handleSecureNetworkBeacon s b).sendIndex =
      if BeaconAccepted s b then beaconIndex b else s.sendIndex := by
  unfold handleSecureNetworkBeacon
  rw [sendIndex_eq]
  by_cases h : BeaconAccepted s b
  · rw [if_pos h, if_pos h, acceptBeacon_ivIndex]
  · rw [if_neg h, if_neg h, getIvIndex_ivIndex, sendIndex_eq]

theorem beaconAccepted_iff (s : DataSource) (b : SigSecureNetworkBeacon) :
    BeaconAccepted s b ↔ s.sendIndex ≤ b.ivIndex := by
  unfold BeaconAccepted
  rw [keyIvIndex_index, ← sendIndex_eq, BitVec.not_lt]

/-! ### One beacon -/

/-- The index does not fall, and is the one of an accepted beacon, or one below it. -/
structure BeaconKept (s : DataSource) (b : SigSecureNetworkBeacon) : Prop where
  le : s.sendIndex ≤ (handleSecureNetworkBeacon s b).sendIndex
  index : BeaconAccepted s b →
    (handleSecureNetworkBeacon s b).sendIndex.toNat + b.ivUpdateActive.toNat = b.ivIndex.toNat

/-- A beacon of an active update that repeats the index used for sending. -/
def Repeats (s : DataSource) (b : SigSecureNetworkBeacon) : Prop :=
  b.ivUpdateActive = true ∧ b.ivIndex = s.sendIndex

instance (s : DataSource) (b : SigSecureNetworkBeacon) : Decidable (Repeats s b) :=
  inferInstanceAs (Decidable (_ ∧ _))

theorem beaconKept_iff (s : DataSource) (b : SigSecureNetworkBeacon) :
    BeaconKept s b ↔ ¬ Repeats s b := by
  have hstep := sendIndex_handle s b
  by_cases hacc : BeaconAccepted s b
  · rw [if_pos hacc] at hstep
    have hle : s.sendIndex.toNat ≤ b.ivIndex.toNat := (beaconAccepted_iff s b).mp hacc
    by_cases hactive : b.ivUpdateActive
    · rw [beaconIndex, if_pos hactive] at hstep
      constructor
      · rintro ⟨hle', hindex⟩ ⟨-, heq⟩
        have hlast := hindex hacc
        -- the index would be one lower, or wrap
        have hfall : s.sendIndex.toNat ≤ (b.ivIndex - 1).toNat := by
          rw [← hstep]
          exact hle'
        rw [hstep, hactive] at hlast
        have hone : true.toNat = 1 := rfl
        have heq' := congrArg BitVec.toNat heq
        omega
      · intro hno
        have hne : b.ivIndex.toNat ≠ s.sendIndex.toNat :=
          fun heq => hno ⟨hactive, BitVec.eq_of_toNat_eq heq⟩
        have hless : (b.ivIndex - 1).toNat + 1 = b.ivIndex.toNat := by
          bv_omega
        refine ⟨?_, fun _ => ?_⟩
        · rw [hstep]
          show s.sendIndex.toNat ≤ (b.ivIndex - 1).toNat
          omega
        · rw [hstep, hactive]
          exact hless
    · rw [beaconIndex, if_neg hactive] at hstep
      refine iff_of_true ⟨?_, fun _ => ?_⟩ fun h => hactive h.1
      · rw [hstep]
        exact hle
      · rw [hstep, Bool.eq_false_of_not_eq_true hactive]
        rfl
  · rw [if_neg hacc] at hstep
    refine iff_of_true ⟨?_, fun h => absurd h hacc⟩ ?_
    · rw [hstep]
      exact BitVec.le_refl _
    · rintro ⟨-, heq⟩
      refine hacc ((beaconAccepted_iff s b).mpr ?_)
      rw [heq]
      exact BitVec.le_refl _

/-! ### Runs -/

/-- Over a run: the index never falls, and every accepted beacon leads to its own. -/
structure IvIndexKept (s : DataSource) (bs : List SigSecureNetworkBeacon) : Prop where
  mono : ∀ earlier later after, bs = earlier ++ later ++ after →
    (afterBeacons s earlier).sendIndex ≤ (afterBeacons s (earlier ++ later)).sendIndex
  index : ∀ earlier b after, bs = earlier ++ b :: after →
    BeaconAccepted (afterBeacons s earlier) b →
      (afterBeacons s (earlier ++ [b])).sendIndex.toNat + b.ivUpdateActive.toNat = b.ivIndex.toNat

theorem afterBeacons_append (s : DataSource) (bs cs : List SigSecureNetworkBeacon) :
    afterBeacons s (bs ++ cs) = afterBeacons (afterBeacons s bs) cs :=
  List.foldl_append

theorem ivIndexKept_of_steps {s : DataSource} {bs : List SigSecureNetworkBeacon}
    (h : ∀ earlier b after, bs = earlier ++ b :: after → BeaconKept (afterBeacons s earlier) b) :
    IvIndexKept s bs := by
  constructor
  · intro earlier later
    induction later using List.reverseRecOn with
    | nil =>
      intro after _
      rw [List.append_nil]
      exact BitVec.le_refl _
    | append_singleton later b ih =>
      intro after hbs
      have hbs' : bs = earlier ++ later ++ b :: after := by simpa using hbs
      have hle := (h _ _ _ hbs').le
      have hlast : afterBeacons s (earlier ++ (later ++ [b])) =
          handleSecureNetworkBeacon (afterBeacons s (earlier ++ later)) b := by
        rw [← List.append_assoc, afterBeacons_append]
        rfl
      rw [hlast]
      exact BitVec.le_trans (ih _ hbs') hle
  · intro earlier b after hbs hacc
    rw [afterBeacons_append]
    exact (h _ _ _ hbs).index hacc

theorem IvIndexKept.steps {s : DataSource} {bs : List SigSecureNetworkBeacon}
    (h : IvIndexKept s bs) (earlier : List SigSecureNetworkBeacon) (b : SigSecureNetworkBeacon)
    (after : List SigSecureNetworkBeacon) (hbs : bs = earlier ++ b :: after) :
    BeaconKept (afterBeacons s earlier) b := by
  have hlast : afterBeacons s (earlier ++ [b]) =
      handleSecureNetworkBeacon (afterBeacons s earlier) b := afterBeacons_append s earlier [b]
  constructor
  · rw [← hlast]
    exact h.mono earlier [b] after (by simpa using hbs)
  · rw [← hlast]
    exact h.index earlier b after hbs

/-- For every run of beacons, whatever keys they are for: the index used for sending is the text
of the data source, and the run keeps it exactly when no beacon of an active update repeats it. -/
theorem ivIndex_runs (s : DataSource) (bs : List SigSecureNetworkBeacon) :
    (afterBeacons s bs).sendIndex = uint32From16String (afterBeacons s bs).ivIndex ∧
      (IvIndexKept s bs ↔
        ∀ earlier b after, bs = earlier ++ b :: after → ¬ Repeats (afterBeacons s earlier) b) := by
  refine ⟨sendIndex_eq _, fun h earlier b after hbs => ?_, fun h => ?_⟩
  · exact (beaconKept_iff _ b).mp (h.steps earlier b after hbs)
  · refine ivIndexKept_of_steps fun earlier b after hbs => ?_
    exact (beaconKept_iff _ b).mpr (h earlier b after hbs)

/-- One key, in normal operation at index 5. -/
def freshDataSource : DataSource :=
  ⟨fun _ => ⟨none, none, .normalOperation, none⟩, 0, format08X 5⟩

/-- A node that lags behind still sends the beacon of the update that ended. -/
theorem ivIndex_runs_refuted :
    ¬ ∀ (s : DataSource) (bs : List SigSecureNetworkBeacon),
      (∀ b ∈ bs, b.networkKey = s.curNetkeyModel) → IvIndexKept s bs := by
  intro hall
  have hkept := hall freshDataSource [⟨0, false, false, 6⟩, ⟨0, false, true, 6⟩] (by decide)
  have hlt := hkept.mono [⟨0, false, false, 6⟩] [⟨0, false, true, 6⟩] [] rfl
  exact absurd hlt (by decide +kernel)

end SigNetworkLayer

end PirMesh
