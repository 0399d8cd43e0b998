import Mathlib.Tactic.IntervalCases
import PirMesh.Library.Ring

/-! # Friend — The cache of a low power node (`mesh_fn.c`)

The friend keeps the messages for a low power node in a ring of
`1 << FN_CACHE_SIZE_LOG` bearers, in big endian and not encrypted.  A friend update
or a segment acknowledgement may take the place of one that is there
(`friendCacheCheckReplace`); anything else is pushed, over the oldest when the ring
is full.  `my_fifo_push_adv` is in the library of the SDK: it is a parameter, and
`FriendLib.Lawful` is what its prototype and its callers say about it. -/

namespace PirMesh

open Ring

/-! ### `my_fifo_t` -/

/-- `wptr`, `rptr` and the cells of a `my_fifo_t`; `k` is the logarithm of its `num`. -/
abbrev MyFifo (α : Type) := Ring.Buf 8 α

section

variable {α : Type} (k : ℕ) (f : MyFifo α)

def myFifoNum : BitVec 8 := 1 <<< k

def myFifoPop : MyFifo α := { f with rptr := f.rptr + 1 }

/-- The cell of the oldest entry, `none` for a null pointer. -/
def myFifoGet : Option ℕ :=
  if f.rptr ≠ f.wptr then some (f.rptr &&& (myFifoNum k - 1)).toNat else none

def myFifoGetOffset (offset : ℕ) : ℕ :=
  ((f.rptr + BitVec.ofNat 8 offset) &&& (myFifoNum k - 1)).toNat

def myFifoDataCntGet : BitVec 8 := f.wptr - f.rptr

def myFifoFreeCntGet : BitVec 8 := myFifoNum k - myFifoDataCntGet f

end

/-! ### Bearers -/

def cmdCtlAck : BitVec 7 := 0x00

def cmdCtlUpdate : BitVec 7 := 0x02

/-- `mesh_cmd_bear_unseg_t` of a network PDU.  `lt` is the first octet of the lower
transport PDU; the octets after it are `data0`, `data1`, the four of `seg_map` and
`rest`. -/
structure MeshCmdBear where
  transParVal : BitVec 8
  len : BitVec 8
  type : BitVec 8
  /-- The octet of `ivi` and `nid`. -/
  nid : BitVec 8
  ctl : Bool
  ttl : BitVec 7
  sno : BitVec 24
  src : BitVec 16
  dst : BitVec 16
  lt : BitVec 8
  data0 : BitVec 8
  data1 : BitVec 8
  segMap : BitVec 32
  rest : List (BitVec 8)
  deriving DecidableEq, Repr

namespace MeshCmdBear

/-- `lt_ctl_unseg.opcode`; of an access message these are the bits of `akf` and `aid`. -/
def opcode (b : MeshCmdBear) : BitVec 7 := b.lt.extractLsb' 0 7

/-- `lt_ctl_ack.seqzero`: the bit field is one of a little endian word, the octets
are in big endian. -/
def seqzero (b : MeshCmdBear) : BitVec 13 := (b.data1 ++ b.data0).extractLsb' 2 13

end MeshCmdBear

/-! ### `friend_cache_check_replace` -/

/-- What becomes of entry `i` when `bearBig` arrives, `none` when it is not replaced. -/
def friendCacheReplace (bearBig : MeshCmdBear) (i : ℕ) (buf : MeshCmdBear) : Option MeshCmdBear :=
  if buf.opcode = cmdCtlUpdate then
    -- the first has been sent, and waits for the check whether it needs a retry
    if i ≠ 0 then
      some { buf with
        sno := bearBig.sno, data0 := bearBig.data0, data1 := bearBig.data1
        segMap := bearBig.segMap }
    else none
  else if buf.opcode = cmdCtlAck then
    if buf.seqzero = bearBig.seqzero then
      some { buf with sno := bearBig.sno, segMap := bearBig.segMap }
    else none
  else none

/-- The loop over the cache: the first entry that is replaced, and by what. -/
def friendCacheSearch (k : ℕ) (f : MyFifo MeshCmdBear) (bearBig : MeshCmdBear) :
    Option (ℕ × MeshCmdBear) :=
  (List.range (myFifoDataCntGet f).toNat).findSome? fun i =>
    (friendCacheReplace bearBig i (f.cell (myFifoGetOffset k f i))).map (i, ·)

def friendCacheCheckReplace (k : ℕ) (f : MyFifo MeshCmdBear) (bearBig : MeshCmdBear) :
    Option (ℕ × MeshCmdBear) :=
  if bearBig.ctl ∧ (bearBig.opcode = cmdCtlUpdate ∨ bearBig.opcode = cmdCtlAck) then
    friendCacheSearch k f bearBig
  else none

/-! ### `mesh_fri_cmd2cache` -/

/-- `my_fifo_push_adv` on the cache, with its flag `ow`. -/
structure FriendLib where
  myFifoPushAdv : MyFifo MeshCmdBear → MeshCmdBear → Bool → MyFifo MeshCmdBear × ℤ

/-- With room the entry is put behind the others and `0` is returned; on a full
ring, with `ow`, it takes the place of the oldest, and the result is not `0`. -/
structure FriendLib.Lawful (lib : FriendLib) (k : ℕ) : Prop where
  room (f : MyFifo MeshCmdBear) (b : MeshCmdBear) :
    f.count < 2 ^ k → lib.myFifoPushAdv f b true = (f.push k b, 0)
  full (f : MyFifo MeshCmdBear) (b : MeshCmdBear) :
    f.count = 2 ^ k → (lib.myFifoPushAdv f b true).1 = f.pop.push k b ∧
      (lib.myFifoPushAdv f b true).2 ≠ 0

/-- A push that does so. -/
def ringPush (k : ℕ) : FriendLib where
  myFifoPushAdv f b ow :=
    if f.count < 2 ^ k then (f.push k b, 0) else if ow then (f.pop.push k b, 1) else (f, -1)

theorem ringPush_lawful (k : ℕ) : (ringPush k).Lawful k where
  room f b h := if_pos h
  full f b h := by simp [ringPush, h]

/-- The fields of `fn_other_par[i]` and the cache they point to. -/
structure FriendCache where
  fifo : MyFifo MeshCmdBear
  cacheOverwrite : Bool

/-- What the entry is made of: the received bearer with the caller's bearer header. -/
def cacheBear (b : MeshCmdBear) (lenNw advType transParVal : BitVec 8) : MeshCmdBear :=
  { b with transParVal := transParVal, len := lenNw + 1, type := advType }

/-- The body of the loop of `mesh_fri_cmd2cache`, for a low power node of `F2L_bit`. -/
def meshFriCmd2cache (lib : FriendLib) (k : ℕ) (c : FriendCache) (b : MeshCmdBear) : FriendCache :=
  match friendCacheCheckReplace k c.fifo b with
  | some (i, e) => { c with fifo := c.fifo.set (myFifoGetOffset k c.fifo i) e }
  | none =>
    let overwrite := myFifoFreeCntGet k c.fifo = 0
    let (fifo, err) := lib.myFifoPushAdv c.fifo b true
    { fifo
      cacheOverwrite := if err ≠ 0 ∧ overwrite then true else c.cacheOverwrite }

/-! ### What they do to the queue -/

section

variable {α : Type} {k : ℕ} {f : MyFifo α}

theorem toNat_and_num (hk : k < 8) (p : BitVec 8) :
    (p &&& (myFifoNum k - 1)).toNat = slot k p := by
  have hmask : (myFifoNum k - 1).toNat = 2 ^ k - 1 := by
    interval_cases k <;> rfl
  rw [BitVec.toNat_and, hmask, Nat.and_two_pow_sub_one_eq_mod]
  rfl

theorem myFifoGetOffset_eq (hk : k < 8) (i : ℕ) :
    myFifoGetOffset k f i = slot k (f.rptr + BitVec.ofNat 8 i) := toNat_and_num hk _

theorem myFifoGet_eq (hk : k < 8) :
    myFifoGet k f = if f.count = 0 then none else some (slot k f.rptr) := by
  unfold myFifoGet
  rw [toNat_and_num hk]
  by_cases h : f.rptr = f.wptr
  · rw [if_neg (not_not.mpr h), if_pos (Buf.count_eq_zero.mpr h)]
  · rw [if_pos h, if_neg (fun h0 => h (Buf.count_eq_zero.mp h0))]

theorem isSome_myFifoGet (hk : k < 8) : (myFifoGet k f).isSome ↔ f.count ≠ 0 := by
  rw [myFifoGet_eq hk]
  split_ifs with h <;> simp [h]

theorem myFifoFreeCntGet_eq_zero (hk : k < 8) :
    myFifoFreeCntGet k f = 0 ↔ f.count = 2 ^ k := by
  have hnum : (myFifoNum k).toNat = 2 ^ k := by
    interval_cases k <;> rfl
  unfold myFifoFreeCntGet myFifoDataCntGet Buf.count
  rw [BitVec.ofNat_eq_ofNat, BitVec.sub_eq_iff_eq_add, BitVec.zero_add, ← BitVec.toNat_inj, hnum,
    eq_comm]

end

section

variable {lib : FriendLib} {k : ℕ} {f : MyFifo MeshCmdBear} {b e : MeshCmdBear} {i : ℕ}

theorem friendCacheCheckReplace_some (hk : k < 8)
    (h : friendCacheCheckReplace k f b = some (i, e)) :
    i < f.count ∧ friendCacheReplace b i (f.cell (slot k (f.rptr + BitVec.ofNat 8 i))) =
      some e := by
  unfold friendCacheCheckReplace friendCacheSearch at h
  split_ifs at h
  obtain ⟨j, hj, hm⟩ := List.exists_of_findSome?_eq_some h
  obtain ⟨x, hx, hp⟩ := Option.map_eq_some_iff.mp hm
  cases hp
  exact ⟨List.mem_range.mp hj, myFifoGetOffset_eq hk i ▸ hx⟩

/-- An entry that is replaced keeps its cell. -/
theorem meshFriCmd2cache_replace (hk : k < 8) {c : FriendCache}
    (h : friendCacheCheckReplace k c.fifo b = some (i, e)) :
    meshFriCmd2cache lib k c b =
      { c with fifo := c.fifo.set (slot k (c.fifo.rptr + BitVec.ofNat 8 i)) e } := by
  unfold meshFriCmd2cache
  rw [h, ← myFifoGetOffset_eq hk]

theorem meshFriCmd2cache_room (hlib : lib.Lawful k) {c : FriendCache}
    (h : friendCacheCheckReplace k c.fifo b = none) (hroom : c.fifo.count < 2 ^ k) :
    meshFriCmd2cache lib k c b = { c with fifo := c.fifo.push k b } := by
  simp [meshFriCmd2cache, h, hlib.room _ _ hroom]

theorem meshFriCmd2cache_full (hlib : lib.Lawful k) (hk : k < 8) {c : FriendCache}
    (h : friendCacheCheckReplace k c.fifo b = none) (hfull : c.fifo.count = 2 ^ k) :
    meshFriCmd2cache lib k c b = ⟨c.fifo.pop.push k b, true⟩ := by
  obtain ⟨hfifo, herr⟩ := hlib.full c.fifo b hfull
  simp [meshFriCmd2cache, h, herr, hfifo, (myFifoFreeCntGet_eq_zero hk).mpr hfull]

end

end PirMesh
