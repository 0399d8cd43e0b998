import Mathlib.Data.List.Induction
import PirMesh.Library.Accesses
import PirMesh.Library.Format

/-! # Node — Authentication of a connection (`user_ali.c`)

A peer sends a random, which the node answers with its cipher under the key of the session; the
peer compares, and its check turns authentication on or off.  While it is on, what is written is
decrypted in place.  A check needs no random before it, and the length of the message is rounded up
with its header, so that every decryption goes behind the packet (`aisDecrypt_within_iff`).
`authentic_iff` says which runs are free of both. -/

namespace PirMesh.Ais

open Run Accesses Accesses.Traced
open Nor (Byte toLE)

/-! ### State and messages -/

/-- `ais_gatt_auth_t`. -/
structure AisGattAuth where
  authOk : Byte
  bleKey : List Byte

/-- What the device is known by, and the cryptography, whatever it computes. -/
structure Device where
  conProductId : BitVec 32
  tblMac : Fin 6 → Byte
  conSecData : Fin 16 → Byte
  sha256 : List Byte → List Byte
  aesCbcEncrypt : (key iv data : List Byte) → List Byte
  aesCbcDecrypt : (key iv data : List Byte) → List Byte

/-- `rf_packet_att_data_t`: the octets from `dat` on, of which the packet has the first ones. -/
structure AttData where
  l2cap : BitVec 16
  dat : ℕ → Byte

/-- An octet of `dat` that was received; `att` and the handle stand before it. -/
def AttData.Has (req : AttData) (i : ℕ) : Prop := i + 3 < req.l2cap.toNat

/-- A message to `AIS_INDICATE_HANDLE`. -/
abbrev Indication := List Byte

def aisAuthRandom : Byte := 0x10
def aisAesCipher : Byte := 0x11
def aisAuthCheck : Byte := 0x12
def aisAuthResult : Byte := 0x13

def aisMaxDataSize : ℕ := 32

/-- `OFFSETOF(ais_msg_t, data)` -/
def dataOffset : ℕ := 4

def aesBlockLen : ℕ := 16

def iv : List Byte := "123aqwed#*$!(4ju".toList.map fun c => BitVec.ofNat 8 c.toNat

def aisGattAuthInit (s : AisGattAuth) : AisGattAuth := { s with authOk := 0 }

/-! ### The key of a session -/

def num2char : List Byte := "0123456789abcdef".toList.map fun c => BitVec.ofNat 8 c.toNat

/-- Two digits an octet. -/
def digits (octets : List Byte) : List Byte :=
  octets.flatMap fun (b : Byte) =>
    [num2char.getD (b >>> 4).toNat 0, num2char.getD (b &&& 15).toNat 0]

/-- A comma. -/
def comma : Byte := 0x2C

def createSha256InputString (pid mac secret : List Byte) : List Byte :=
  digits pid.reverse ++ comma :: digits mac ++ comma :: digits secret

/-- `sha256_in` -/
def sha256In (D : Device) (random : List Byte) : List Byte :=
  random ++ comma :: createSha256InputString (toLE 4 D.conProductId.toNat)
    (List.ofFn D.tblMac).reverse (List.ofFn D.conSecData)

def sessionKey (D : Device) (random : List Byte) : List Byte :=
  (D.sha256 (sha256In D random)).take 16

/-- `sha256_in` has 71 octets. -/
theorem length_sha256In {random : List Byte} (D : Device) (h : random.length = 16) :
    (sha256In D random).length = 71 := by
  simp [sha256In, createSha256InputString, digits, Nor.length_toLE, h]

/-! ### A write -/

/-- `len` octets from `start` on. -/
def octetsAt (mem : ℕ → Byte) (start len : ℕ) : List Byte :=
  (List.range len).map fun i => mem (start + i)

/-- The octets are replaced where they stand. -/
def inPlace (f : List Byte → List Byte) (mem : ℕ → Byte) (start len : ℕ) :
    Traced ℕ (ℕ → Byte) where
  val i :=
    if start ≤ i ∧ i < start + len then (f (octetsAt mem start len)).getD (i - start) 0 else mem i
  log := (List.range len).map (start + ·)

/-- `len` before it is stored: all of it is `int`, whose division goes towards zero. -/
def paddedLen (l2cap : BitVec 16) : ℤ :=
  ((l2cap.toNat : ℤ) - 3 + aesBlockLen - 1).tdiv aesBlockLen * aesBlockLen

def decryptLen (l2cap : BitVec 16) : ℕ :=
  let len := BitVec.ofInt 16 (paddedLen l2cap)
  if aisMaxDataSize < len.toNat then 0 else len.toNat

variable (D : Device)

/-- What is written is decrypted in an authenticated connection. -/
def aisDecrypt (s : AisGattAuth) (req : AttData) : Traced ℕ (ℕ → Byte) :=
  if s.authOk ≠ 0 then
    inPlace (D.aesCbcDecrypt s.bleKey iv) req.dat dataOffset (decryptLen req.l2cap)
  else pure req.dat

/-- The header, no frames, `0x10` octets. -/
def aisAuthCipher (dat : ℕ → Byte) : Indication :=
  [dat 0, aisAesCipher, 0, 0x10] ++ octetsAt dat dataOffset 16

def authResult (dat : ℕ → Byte) (result : Byte) : Indication :=
  [dat 0, aisAuthResult, dat 2, dat 3, result]

/-- The rest of `ais_write_pipe`, on the octets as they are then. -/
def aisHandle (s : AisGattAuth) (req : AttData) (dat : ℕ → Byte) :
    Traced ℕ (AisGattAuth × List Indication) :=
  if s.authOk = 0 ∧ dat 1 = aisAuthRandom ∧ req.l2cap = 23 then
    let bleKey := sessionKey D (octetsAt dat dataOffset 16)
    inPlace (D.aesCbcEncrypt bleKey iv) dat dataOffset 16 >>= fun dat =>
      pure ({ s with bleKey := bleKey }, [aisAuthCipher dat])
  else if dat 1 = aisAuthCheck then
    if dat dataOffset ≠ 0 then pure (aisGattAuthInit s, [authResult dat 1])
    else pure ({ s with authOk := 1 }, [authResult dat 0])
  else pure (s, [])

def aisWritePipe (s : AisGattAuth) (req : AttData) : Traced ℕ (AisGattAuth × List Indication) :=
  aisDecrypt D s req >>= aisHandle D s req

/-- The state after a write. -/
def next (s : AisGattAuth) (req : AttData) : AisGattAuth := (aisWritePipe D s req).val.1

/-! ### What a write does -/

/-- A random of full length. -/
structure AttData.IsRandom (req : AttData) : Prop where
  msgType : req.dat 1 = aisAuthRandom
  length : req.l2cap = 23

/-- The random of a message. -/
def AttData.random (req : AttData) : List Byte := octetsAt req.dat dataOffset 16

/-- The cipher of a random. -/
def cipher (random : List Byte) : List Byte :=
  (List.range 16).map ((D.aesCbcEncrypt (sessionKey D random) iv random).getD · 0)

/-- A random of full length that is answered with its cipher, under the key that is kept. -/
structure Answered (s : AisGattAuth) (req : AttData) : Prop extends req.IsRandom where
  key : (next D s req).bleKey = sessionKey D req.random
  answer : (aisWritePipe D s req).val.2 =
    [[req.dat 0, aisAesCipher, 0, 0x10] ++ cipher D req.random]

/-- A check with a failure, as it is read. -/
structure FailedCheck (s : AisGattAuth) (req : AttData) : Prop where
  msgType : req.dat 1 = aisAuthCheck
  result : (aisDecrypt D s req).val dataOffset ≠ 0

variable {D} {s : AisGattAuth} {req : AttData}

theorem inPlace_of_lt (f : List Byte → List Byte) (mem : ℕ → Byte) (len : ℕ) {start i : ℕ}
    (h : i < start) : (inPlace f mem start len).val i = mem i :=
  if_neg fun hi => Nat.not_le_of_lt h hi.1

theorem octetsAt_inPlace (f : List Byte → List Byte) (mem : ℕ → Byte) (start len : ℕ) :
    octetsAt (inPlace f mem start len).val start len =
      (List.range len).map ((f (octetsAt mem start len)).getD · 0) := by
  refine List.map_congr_left fun i hi => ?_
  have hlt : i < len := List.mem_range.mp hi
  refine (if_pos ⟨Nat.le_add_right start i, Nat.add_lt_add_left hlt start⟩).trans ?_
  rw [Nat.add_sub_cancel_left]

/-- The header is not decrypted. -/
theorem aisDecrypt_of_lt {i : ℕ} (h : i < dataOffset) : (aisDecrypt D s req).val i = req.dat i := by
  unfold aisDecrypt
  split_ifs
  · exact inPlace_of_lt _ _ _ h
  · rfl

theorem aisDecrypt_of_off (h : s.authOk = 0) : (aisDecrypt D s req).val = req.dat := by
  rw [aisDecrypt, if_neg (not_not.mpr h)]
  rfl

theorem aisWritePipe_val :
    (aisWritePipe D s req).val = (aisHandle D s req (aisDecrypt D s req).val).val := rfl

/-- All that a write can do. -/
inductive Outcome (D : Device) (s : AisGattAuth) (req : AttData) : Prop
  | random (off : s.authOk = 0) (answered : Answered D s req)
      (authOk : (next D s req).authOk = 0)
  | failed (check : FailedCheck D s req) (state : next D s req = aisGattAuthInit s)
  | passed (msgType : req.dat 1 = aisAuthCheck)
      (result : (aisDecrypt D s req).val dataOffset = 0)
      (state : next D s req = { s with authOk := 1 })
  | other (random : s.authOk = 0 → ¬req.IsRandom) (check : req.dat 1 ≠ aisAuthCheck)
      (state : next D s req = s)

theorem answered_of_isRandom (hoff : s.authOk = 0) (hrandom : req.IsRandom) :
    Answered D s req ∧ (next D s req).authOk = 0 := by
  have hval : (aisWritePipe D s req).val =
      ({ s with bleKey := sessionKey D req.random }, [aisAuthCipher (inPlace
        (D.aesCbcEncrypt (sessionKey D req.random) iv) req.dat dataOffset 16).val]) := by
    rw [aisWritePipe_val, aisDecrypt_of_off hoff, aisHandle,
      if_pos ⟨hoff, hrandom.msgType, hrandom.length⟩]
    rfl
  refine ⟨⟨hrandom, ?_, ?_⟩, ?_⟩
  · rw [next, hval]
  · rw [hval, aisAuthCipher, octetsAt_inPlace, inPlace_of_lt _ _ _ (by decide)]
    rfl
  · rw [next, hval]
    exact hoff

theorem outcome (D : Device) (s : AisGattAuth) (req : AttData) : Outcome D s req := by
  have htype : (aisDecrypt D s req).val 1 = req.dat 1 := aisDecrypt_of_lt (by decide)
  by_cases hrandom : s.authOk = 0 ∧ req.IsRandom
  · obtain ⟨hanswered, hoff⟩ := answered_of_isRandom hrandom.1 hrandom.2
    exact .random hrandom.1 hanswered hoff
  · have hskip : ¬(s.authOk = 0 ∧ (aisDecrypt D s req).val 1 = aisAuthRandom ∧ req.l2cap = 23) :=
      fun h => hrandom ⟨h.1, htype ▸ h.2.1, h.2.2⟩
    have hval : (aisWritePipe D s req).val = _ := aisWritePipe_val
    rw [aisHandle, if_neg hskip, htype] at hval
    by_cases hcheck : req.dat 1 = aisAuthCheck
    · rw [if_pos hcheck] at hval
      by_cases hresult : (aisDecrypt D s req).val dataOffset = 0
      · rw [if_neg (not_not.mpr hresult)] at hval
        exact .passed hcheck hresult (congrArg Prod.fst hval)
      · rw [if_pos hresult] at hval
        exact .failed ⟨hcheck, hresult⟩ (congrArg Prod.fst hval)
    · rw [if_neg hcheck] at hval
      exact .other (fun hoff h => hrandom ⟨hoff, h⟩) hcheck (congrArg Prod.fst hval)

/-! ### Which octets the cryptography touches -/

/-- What is divided is not below zero, even without `att` and the handle. -/
theorem paddedLen_eq (l2cap : BitVec 16) :
    paddedLen l2cap = ((l2cap.toNat + 12) / 16 * 16 : ℕ) := by
  have hsum : (l2cap.toNat : ℤ) - 3 + aesBlockLen - 1 = (l2cap.toNat + 12 : ℕ) := by
    unfold aesBlockLen
    omega
  rw [paddedLen, hsum]
  rfl

theorem paddedLen_nonneg (l2cap : BitVec 16) : 0 ≤ paddedLen l2cap := by
  rw [paddedLen_eq]
  exact Int.natCast_nonneg _

/-- Only a message of up to two blocks is decrypted, and its header counts. -/
theorem decryptLen_cases (l2cap : BitVec 16) :
    (decryptLen l2cap = 0 ∧ (l2cap.toNat ≤ 3 ∨ 36 ≤ l2cap.toNat)) ∨
      (3 < l2cap.toNat ∧ l2cap.toNat < 36 ∧ l2cap.toNat ≤ decryptLen l2cap + 3) := by
  have hlt := l2cap.isLt
  have hlen : (BitVec.ofInt 16 (paddedLen l2cap)).toNat = (l2cap.toNat + 12) / 16 * 16 % 65536 := by
    rw [paddedLen_eq, BitVec.toNat_ofInt]
    omega
  unfold decryptLen
  dsimp only
  rw [hlen, aisMaxDataSize]
  split_ifs <;> omega

theorem inPlace_within {ok : ℕ → Prop} (f : List Byte → List Byte) (mem : ℕ → Byte)
    (start len : ℕ) : (inPlace f mem start len).Within ok ↔ ∀ i < len, ok (start + i) := by
  unfold Within inPlace
  simp [List.mem_map]

/-- A decryption stays in the packet only when it does nothing. -/
theorem aisDecrypt_within_iff :
    (aisDecrypt D s req).Within req.Has ↔
      (s.authOk ≠ 0 → req.l2cap.toNat ≤ 3 ∨ 36 ≤ req.l2cap.toNat) := by
  unfold aisDecrypt
  split_ifs with hon
  · rw [inPlace_within]
    rcases decryptLen_cases req.l2cap with ⟨hzero, hl2cap⟩ | ⟨hlow, hhigh, hlen⟩
    · rw [hzero]
      exact iff_of_true (fun i hi => absurd hi (Nat.not_lt_zero i)) fun _ => hl2cap
    · refine iff_of_false (fun h => ?_) (fun h => by have := h hon; omega)
      have hlast := h (decryptLen req.l2cap - 1) (by omega)
      unfold AttData.Has dataOffset at hlast
      omega
  · exact iff_of_true (within_pure _) fun h => absurd h hon

/-- The encryption of a random of full length stays in the packet. -/
theorem aisHandle_within (dat : ℕ → Byte) : (aisHandle D s req dat).Within req.Has := by
  unfold aisHandle
  split_ifs with hrandom
  · refine (within_bind _ _).mpr ⟨(inPlace_within ..).mpr fun i hi => ?_, within_pure _⟩
    unfold AttData.Has dataOffset
    rw [hrandom.2.2]
    show 4 + i + 3 < 23
    omega
  · exact within_pure _
  · exact within_pure _
  · exact within_pure _

theorem aisWritePipe_within_iff :
    (aisWritePipe D s req).Within req.Has ↔
      (s.authOk ≠ 0 → req.l2cap.toNat ≤ 3 ∨ 36 ≤ req.l2cap.toNat) := by
  refine (within_bind _ _).trans ?_
  rw [aisDecrypt_within_iff]
  exact and_iff_left (aisHandle_within _)

/-! ### Runs -/

variable (D)

/-- The state after some writes. -/
def run (s : AisGattAuth) (writes : List AttData) : AisGattAuth := writes.foldl (next D) s

/-- The session of the key that is kept: that of a random that was answered. -/
def Keyed (s : AisGattAuth) (writes : List AttData) : Prop :=
  ∃ earlier req, earlier ++ [req] <+: writes ∧ Answered D (run D s earlier) req ∧
    (run D s writes).bleKey = sessionKey D req.random

/-- **The connection is authentic.** -/
structure Authentic (s : AisGattAuth) (writes : List AttData) : Prop where
  keyed : ∀ p, p <+: writes → (run D s p).authOk ≠ 0 → Keyed D s p
  cleared : ∀ p req, p ++ [req] <+: writes → FailedCheck D (run D s p) req →
    (run D s (p ++ [req])).authOk = 0
  within : ∀ p req, p ++ [req] <+: writes →
    (aisWritePipe D (run D s p) req).Within req.Has ∧ 0 ≤ paddedLen req.l2cap

/-- No check that passes as it is written comes before every random of full length. -/
def RandomFirst (writes : List AttData) : Prop :=
  ∀ p req, p ++ [req] <+: writes → req.dat 1 = aisAuthCheck → req.dat dataOffset = 0 →
    ∃ r ∈ p, r.IsRandom

variable {D} {writes : List AttData}

theorem run_concat (s : AisGattAuth) (p : List AttData) (req : AttData) :
    run D s (p ++ [req]) = next D (run D s p) req := List.foldl_append

theorem Answered.keyed {p : List AttData} (h : Answered D (run D s p) req) :
    Keyed D s (p ++ [req]) :=
  ⟨p, req, List.prefix_rfl, h, by rw [run_concat]; exact h.key⟩

/-- A key that is kept is still that of its session. -/
theorem Keyed.concat {p : List AttData} (h : Keyed D s p)
    (hkey : (next D (run D s p) req).bleKey = (run D s p).bleKey) : Keyed D s (p ++ [req]) := by
  obtain ⟨earlier, r, hprefix, hanswered, hr⟩ := h
  refine ⟨earlier, r, hprefix.trans (List.prefix_append ..), hanswered, ?_⟩
  rw [run_concat, hkey, hr]

theorem not_isRandom_of_check (h : req.dat 1 = aisAuthCheck) : ¬req.IsRandom := fun hrandom =>
  absurd (h.symm.trans hrandom.msgType) (by decide)

theorem FailedCheck.clears (h : FailedCheck D s req) : (next D s req).authOk = 0 := by
  cases outcome D s req with
  | random _ _ hstate => exact hstate
  | failed _ hstate =>
    rw [hstate]
    rfl
  | passed _ hresult _ => exact absurd hresult h.result
  | other _ hcheck _ => exact absurd h.msgType hcheck

/-- A check that is written as passed turns authentication on, whatever came before it. -/
theorem on_of_check (hoff : s.authOk = 0) (htype : req.dat 1 = aisAuthCheck)
    (hdata : req.dat dataOffset = 0) : (next D s req).authOk = 1 := by
  cases outcome D s req with
  | random _ hanswered _ => exact absurd hanswered.toIsRandom (not_isRandom_of_check htype)
  | failed hcheck _ =>
    have hresult := hcheck.result
    rw [aisDecrypt_of_off hoff] at hresult
    exact absurd hdata hresult
  | passed _ _ hstate => rw [hstate]
  | other _ hcheck _ => exact absurd htype hcheck

/-- Where no check comes too early, a connection that is on has the key of its session, and so has
one that has seen a random. -/
theorem keyed_of_randomFirst (h : RandomFirst writes) (hoff : s.authOk = 0) (p : List AttData)
    (hp : p <+: writes) :
    ((∃ r ∈ p, r.IsRandom) → Keyed D s p) ∧ ((run D s p).authOk ≠ 0 → ∃ r ∈ p, r.IsRandom) := by
  induction p using List.reverseRecOn with
  | nil => exact ⟨fun ⟨r, hr, _⟩ => absurd hr List.not_mem_nil, fun hon => absurd hoff hon⟩
  | append_singleton p req ih =>
    obtain ⟨hkeyed, hon⟩ := ih ((List.prefix_append ..).trans hp)
    have hlater : (∃ r ∈ p, r.IsRandom) → ∃ r ∈ p ++ [req], r.IsRandom := by
      rintro ⟨r, hr, hrandom⟩
      exact ⟨r, List.mem_append_left _ hr, hrandom⟩
    have hearlier : (req.IsRandom → ∃ r ∈ p, r.IsRandom) →
        (∃ r ∈ p ++ [req], r.IsRandom) → ∃ r ∈ p, r.IsRandom := by
      rintro hreq ⟨r, hr, hrandom⟩
      rcases List.mem_append.mp hr with hr | hr
      · exact ⟨r, hr, hrandom⟩
      · exact hreq (List.mem_singleton.mp hr ▸ hrandom)
    rw [run_concat]
    cases outcome D (run D s p) req with
    | random hzero hanswered hstate =>
      exact ⟨fun _ => hanswered.keyed, fun hne => absurd hstate hne⟩
    | failed hcheck hstate =>
      rw [hstate]
      refine ⟨fun hseen => ?_, fun hne => absurd rfl hne⟩
      have hreq := not_isRandom_of_check hcheck.msgType
      exact (hkeyed (hearlier (fun h => absurd h hreq) hseen)).concat (by rw [hstate]; rfl)
    | passed htype hresult hstate =>
      rw [hstate]
      refine ⟨fun hseen => ?_, fun _ => hlater ?_⟩
      · have hreq := not_isRandom_of_check htype
        exact (hkeyed (hearlier (fun h => absurd h hreq) hseen)).concat (by rw [hstate])
      · by_cases hzero : (run D s p).authOk = 0
        · rw [aisDecrypt_of_off hzero] at hresult
          exact h p req hp htype hresult
        · exact hon hzero
    | other hrandom hcheck hstate =>
      rw [hstate]
      refine ⟨fun hseen => ?_, fun hne => hlater (hon hne)⟩
      have hreq : req.IsRandom → ∃ r ∈ p, r.IsRandom := fun hreq =>
        hon fun hzero => hrandom hzero hreq
      exact (hkeyed (hearlier hreq hseen)).concat (by rw [hstate])

/-- The first check that passes needs a random before it. -/
theorem randomFirst_of_keyed
    (h : ∀ p, p <+: writes → (run D s p).authOk ≠ 0 → Keyed D s p) : RandomFirst writes := by
  intro p req hp htype hdata
  by_cases hzero : (run D s p).authOk = 0
  · have hon : (run D s (p ++ [req])).authOk ≠ 0 := by
      rw [run_concat, on_of_check hzero htype hdata]
      decide
    obtain ⟨earlier, r, hprefix, hanswered, -⟩ := h _ hp hon
    rcases List.prefix_concat_iff.mp hprefix with heq | hprefix
    · obtain ⟨-, hreq⟩ := List.append_inj' heq rfl
      obtain rfl := (List.cons.inj hreq).1
      exact absurd hanswered.toIsRandom (not_isRandom_of_check htype)
    · exact ⟨r, hprefix.subset (by simp), hanswered.toIsRandom⟩
  · obtain ⟨earlier, r, hprefix, hanswered, -⟩ := h p ((List.prefix_append ..).trans hp) hzero
    exact ⟨r, hprefix.subset (by simp), hanswered.toIsRandom⟩

/-- A connection is authentic exactly if a random comes before the first check that passes, and
nothing is decrypted. -/
theorem authentic_iff (D : Device) (s : AisGattAuth) (writes : List AttData) :
    Authentic D (aisGattAuthInit s) writes ↔ RandomFirst writes ∧
      GoodRun (next D) (fun s req => s.authOk ≠ 0 → req.l2cap.toNat ≤ 3 ∨ 36 ≤ req.l2cap.toNat)
        (aisGattAuthInit s) writes := by
  rw [← forall_step_iff_goodRun]
  constructor
  · intro h
    refine ⟨randomFirst_of_keyed h.keyed, fun p req hp => ?_⟩
    exact aisWritePipe_within_iff.mp (h.within p req hp).1
  · rintro ⟨hfirst, hgood⟩
    refine ⟨fun p hp hon => ?_, fun p req hp hcheck => ?_, fun p req hp => ⟨?_, ?_⟩⟩
    · have hoff : (aisGattAuthInit s).authOk = 0 := rfl
      obtain ⟨hkeyed, hseen⟩ := keyed_of_randomFirst hfirst hoff p hp
      exact hkeyed (hseen hon)
    · rw [run_concat]
      exact hcheck.clears
    · exact aisWritePipe_within_iff.mpr (hgood p req hp)
    · exact paddedLen_nonneg _

/-- A message of this type and length, with the same octet all through its data. -/
def sampleWrite (msgType : Byte) (l2cap : BitVec 16) (octet : Byte) : AttData where
  l2cap := l2cap
  dat i := if i = 1 then msgType else if i < dataOffset then 0 else octet

/-- A check alone turns authentication on; and after a random and a check, a message of sixteen
octets is decrypted beyond its end. -/
theorem authentic_refuted :
    (∀ (D : Device) (s : AisGattAuth),
      ¬Authentic D (aisGattAuthInit s) [sampleWrite aisAuthCheck 8 0]) ∧
    ∀ (D : Device) (s : AisGattAuth), ¬Authentic D (aisGattAuthInit s)
      [sampleWrite aisAuthRandom 23 0, sampleWrite aisAuthCheck 8 0, sampleWrite 0 23 0] := by
  constructor
  · intro D s h
    obtain ⟨r, hr, -⟩ := randomFirst_of_keyed h.keyed [] _ List.prefix_rfl rfl rfl
    exact absurd hr List.not_mem_nil
  · intro D s h
    have hrandom : (sampleWrite aisAuthRandom 23 0).IsRandom := ⟨rfl, rfl⟩
    have hoff : (next D (aisGattAuthInit s) (sampleWrite aisAuthRandom 23 0)).authOk = 0 :=
      (answered_of_isRandom rfl hrandom).2
    have hon : (run D (aisGattAuthInit s) [sampleWrite aisAuthRandom 23 0,
        sampleWrite aisAuthCheck 8 0]).authOk = 1 := on_of_check hoff rfl rfl
    have hwithin := h.within [_, _] _ List.prefix_rfl
    have hlength := aisWritePipe_within_iff.mp hwithin.1 (hon.trans_ne (by decide))
    exact absurd hlength (by decide)

end PirMesh.Ais
