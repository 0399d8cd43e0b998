import Mathlib.Logic.Basic
import Mathlib.Data.BitVec
import PirMesh.Keys.Table

/-! # Keys — The timeout of a node identity (`mesh_node.c`)

While a node identity runs, the node advertises it; after a minute the main loop stops it and saves
the keys.  Each NetKey has two identities, each with the second it was started at.

The private identity is not stopped: `mesh_switch_identity_proc` writes the stopped value over the
second.  It expires again, and is saved again, with the passes to come.  `identityTimeout_iff`
says that this is all that goes wrong. -/

namespace PirMesh

open Nor

/-! ### State -/

variable {Mat : Type}

/-- A NetKey with the clocks of its identities, those of its first generation. -/
structure IdentityKey (Mat : Type) where
  row : NetKeyRow Mat
  startIdentityS : BitVec 32
  privIdentityS : BitVec 32

/-- `mesh_key.net_key` -/
structure IdentityKeys (Mat : Type) where
  key : Fin netKeyMax → IdentityKey Mat
  /-- Not in the code: the keys `mesh_key_save` was called with. -/
  saved : List (Fin netKeyMax → IdentityKey Mat)

/-- `NODE_IDENTITY_SUB_NET_STOP` -/
def nodeIdentitySubNetStop : Byte := 0

/-- `PRIVATE_NODE_IDENTITY_ENABLE` -/
def privateNodeIdentityEnable : Byte := 1

/-- `NODE_IDENTITY_TIMEOUT_S` -/
def nodeIdentityTimeoutS : BitVec 32 := 60

/-- `now` is `clock_time_s()`. -/
def clockTimeExceedS (now ref spanS : BitVec 32) : Bool := now - ref > spanS

inductive IdentityKind
  | node
  | priv
  deriving DecidableEq, Repr

namespace IdentityKey

def setNodeIdentity (k : IdentityKey Mat) (identity : Byte) : IdentityKey Mat :=
  { k with row := { k.row with old := { k.row.old with nodeIdentity := identity } } }

/-- The value that runs an identity. -/
def runs : IdentityKind → Byte
  | .node => nodeIdentitySubNetRun
  | .priv => privateNodeIdentityEnable

/-- The value that stops it. -/
def stops : IdentityKind → Byte
  | .node => nodeIdentitySubNetStop
  | .priv => privateNodeIdentityDisable

variable (k : IdentityKey Mat)

def identity : IdentityKind → Byte
  | .node => k.row.old.nodeIdentity
  | .priv => k.row.old.privIdentity

def startS : IdentityKind → BitVec 32
  | .node => k.startIdentityS
  | .priv => k.privIdentityS

/-- It runs, and its time is up. -/
def expires (now : BitVec 32) (kind : IdentityKind) : Bool :=
  k.row.old.valid && k.identity kind == runs kind &&
    clockTimeExceedS now (k.startS kind) nodeIdentityTimeoutS

/-- One turn of the loop.  The private identity that expires keeps running: the value that stops it
goes to the second it was started at. -/
def switchIdentity (now : BitVec 32) : IdentityKey Mat :=
  let k := if k.expires now .node then k.setNodeIdentity nodeIdentitySubNetStop else k
  if k.expires now .priv then { k with privIdentityS := privateNodeIdentityDisable.setWidth 32 }
  else k

/-- What the turn adds to `identity_trigger`. -/
def identityTrigger (now : BitVec 32) : ℕ :=
  (if k.expires now .node then 1 else 0) + if k.expires now .priv then 1 else 0

end IdentityKey

def meshSwitchIdentityProc (s : IdentityKeys Mat) (now : BitVec 32) : IdentityKeys Mat :=
  let key := fun i => (s.key i).switchIdentity now
  let identityTrigger := ((List.finRange netKeyMax).map fun i => (s.key i).identityTrigger now).sum
  if identityTrigger ≠ 0 then ⟨key, s.saved ++ [key]⟩
  else ⟨key, s.saved⟩

/-! ### What a run is to do -/

/-- The state after passes at these seconds. -/
def IdentityKeys.after (s : IdentityKeys Mat) (ts : List (BitVec 32)) : IdentityKeys Mat :=
  ts.foldl meshSwitchIdentityProc s

/-- An identity that expires is stopped for good, the others and the second generation are left
alone, and the pass saves once. -/
structure IdentityTimeout (s : IdentityKeys Mat) (ts : List (BitVec 32)) : Prop where
  stops : ∀ past now later rest, ts = past ++ now :: (later ++ rest) → ∀ i kind,
    ((s.after past).key i).expires now kind →
      ((s.after (past ++ now :: later)).key i).identity kind = IdentityKey.stops kind
  others : ∀ past now rest, ts = past ++ now :: rest → ∀ i kind,
    ¬ ((s.after past).key i).expires now kind →
      ((s.after (past ++ [now])).key i).identity kind = ((s.after past).key i).identity kind ∧
      ((s.after (past ++ [now])).key i).startS kind = ((s.after past).key i).startS kind
  second : ∀ past rest, ts = past ++ rest → ∀ i,
    ((s.after past).key i).row.new = (s.key i).row.new
  saves : ∀ past now rest, ts = past ++ now :: rest →
    (∃ i kind, ((s.after past).key i).expires now kind) →
      (s.after (past ++ [now])).saved = (s.after past).saved ++ [(s.after (past ++ [now])).key]
  rests : ∀ past now rest, ts = past ++ now :: rest →
    (¬ ∃ i kind, ((s.after past).key i).expires now kind) →
      (s.after (past ++ [now])).saved = (s.after past).saved

/-! ### One pass -/

namespace IdentityKey

variable {k : IdentityKey Mat} {now : BitVec 32}

theorem switchIdentity_valid (k : IdentityKey Mat) (now : BitVec 32) :
    (k.switchIdentity now).row.old.valid = k.row.old.valid := by
  unfold switchIdentity
  dsimp only
  split_ifs
  all_goals rfl

theorem switchIdentity_new (k : IdentityKey Mat) (now : BitVec 32) :
    (k.switchIdentity now).row.new = k.row.new := by
  unfold switchIdentity
  dsimp only
  split_ifs
  all_goals rfl

theorem switchIdentity_node (k : IdentityKey Mat) (now : BitVec 32) :
    (k.switchIdentity now).identity .node =
      if k.expires now .node then nodeIdentitySubNetStop else k.identity .node := by
  unfold switchIdentity
  dsimp only
  split_ifs
  all_goals rfl

theorem switchIdentity_startIdentityS (k : IdentityKey Mat) (now : BitVec 32) :
    (k.switchIdentity now).startIdentityS = k.startIdentityS := by
  unfold switchIdentity
  dsimp only
  split_ifs
  all_goals rfl

theorem switchIdentity_priv (k : IdentityKey Mat) (now : BitVec 32) :
    (k.switchIdentity now).identity .priv = k.identity .priv := by
  unfold switchIdentity
  dsimp only
  split_ifs
  all_goals rfl

theorem switchIdentity_privIdentityS (h : ¬ k.expires now .priv) :
    (k.switchIdentity now).privIdentityS = k.privIdentityS := by
  unfold switchIdentity
  dsimp only
  split_ifs with h1 h2
  · exact absurd h2 h
  · rfl
  · rfl

theorem identityTrigger_ne_zero :
    k.identityTrigger now ≠ 0 ↔ ∃ kind, k.expires now kind := by
  unfold identityTrigger
  constructor
  · intro h
    by_cases hn : k.expires now .node
    · exact ⟨.node, hn⟩
    · by_cases hp : k.expires now .priv
      · exact ⟨.priv, hp⟩
      · rw [if_neg hn, if_neg hp] at h
        exact absurd rfl h
  · rintro ⟨kind, h⟩
    cases kind with
    | node =>
      rw [if_pos h]
      omega
    | priv =>
      rw [if_pos h]
      omega

end IdentityKey

namespace IdentityKeys

variable (s : IdentityKeys Mat) (now : BitVec 32)

@[simp] theorem proc_key (i : Fin netKeyMax) :
    (meshSwitchIdentityProc s now).key i = (s.key i).switchIdentity now := by
  unfold meshSwitchIdentityProc
  dsimp only
  split_ifs
  all_goals rfl

theorem trigger_sum_ne_zero :
    ((List.finRange netKeyMax).map fun i => (s.key i).identityTrigger now).sum ≠ 0 ↔
      ∃ i kind, (s.key i).expires now kind := by
  rw [Ne, List.sum_eq_zero_iff_forall_eq_nat, not_forall]
  constructor
  · rintro ⟨n, h⟩
    obtain ⟨hmem, hne⟩ := Classical.not_imp.mp h
    obtain ⟨i, -, rfl⟩ := List.mem_map.mp hmem
    exact ⟨i, IdentityKey.identityTrigger_ne_zero.mp hne⟩
  · rintro ⟨i, h⟩
    exact ⟨_, Classical.not_imp.mpr
      ⟨List.mem_map_of_mem (List.mem_finRange i), IdentityKey.identityTrigger_ne_zero.mpr h⟩⟩

variable {s now}

theorem proc_saved (h : ∃ i kind, (s.key i).expires now kind) :
    (meshSwitchIdentityProc s now).saved = s.saved ++ [(meshSwitchIdentityProc s now).key] := by
  unfold meshSwitchIdentityProc
  dsimp only
  rw [if_pos ((trigger_sum_ne_zero s now).mpr h)]

theorem proc_rests (h : ¬ ∃ i kind, (s.key i).expires now kind) :
    (meshSwitchIdentityProc s now).saved = s.saved := by
  unfold meshSwitchIdentityProc
  dsimp only
  rw [if_neg (mt (trigger_sum_ne_zero s now).mp h)]

theorem after_append (s : IdentityKeys Mat) (ts ts' : List (BitVec 32)) :
    s.after (ts ++ ts') = (s.after ts).after ts' :=
  List.foldl_append ..

/-- A node identity that is stopped stays so. -/
theorem after_node_stopped {s : IdentityKeys Mat} {i : Fin netKeyMax}
    (h : (s.key i).identity .node = nodeIdentitySubNetStop) (ts : List (BitVec 32)) :
    ((s.after ts).key i).identity .node = nodeIdentitySubNetStop := by
  induction ts generalizing s with
  | nil => exact h
  | cons now ts ih =>
    refine ih ?_
    rw [proc_key, IdentityKey.switchIdentity_node, h, ite_self]

theorem after_concat (s : IdentityKeys Mat) (ts : List (BitVec 32)) (now : BitVec 32) :
    s.after (ts ++ [now]) = meshSwitchIdentityProc (s.after ts) now := s.after_append ts [now]

theorem after_new (s : IdentityKeys Mat) (ts : List (BitVec 32)) (i : Fin netKeyMax) :
    ((s.after ts).key i).row.new = (s.key i).row.new := by
  induction ts generalizing s with
  | nil => rfl
  | cons now ts ih =>
    refine (ih (meshSwitchIdentityProc s now)).trans ?_
    rw [proc_key, IdentityKey.switchIdentity_new]

/-- No private identity expires with any of the passes. -/
def PrivStays (s : IdentityKeys Mat) (ts : List (BitVec 32)) : Prop :=
  ∀ now ∈ ts, ∀ i, ¬ (s.key i).expires now .priv

/-- The private identities of both states are the same, and their clocks. -/
structure SamePriv (s s' : IdentityKeys Mat) : Prop where
  valid : ∀ i, (s'.key i).row.old.valid = (s.key i).row.old.valid
  identity : ∀ i, (s'.key i).identity .priv = (s.key i).identity .priv
  start : ∀ i, (s'.key i).privIdentityS = (s.key i).privIdentityS

theorem SamePriv.expires {s s' : IdentityKeys Mat} (h : SamePriv s s') (now : BitVec 32)
    (i : Fin netKeyMax) : (s'.key i).expires now .priv = (s.key i).expires now .priv := by
  unfold IdentityKey.expires IdentityKey.startS
  dsimp only
  rw [h.valid, h.identity, h.start]

theorem SamePriv.privStays_iff {s s' : IdentityKeys Mat} (h : SamePriv s s')
    (ts : List (BitVec 32)) : s'.PrivStays ts ↔ s.PrivStays ts := by
  unfold PrivStays
  simp only [h.expires]

/-- A pass without such an expiry leaves the private identities as they are. -/
theorem samePriv_proc (h : ∀ i, ¬ (s.key i).expires now .priv) :
    SamePriv s (meshSwitchIdentityProc s now) := by
  refine ⟨fun i => ?_, fun i => ?_, fun i => ?_⟩
  · rw [proc_key, IdentityKey.switchIdentity_valid]
  · rw [proc_key, IdentityKey.switchIdentity_priv]
  · rw [proc_key, IdentityKey.switchIdentity_privIdentityS (h i)]

theorem samePriv_after {s : IdentityKeys Mat} {ts : List (BitVec 32)} (h : s.PrivStays ts) :
    SamePriv s (s.after ts) := by
  induction ts generalizing s with
  | nil => exact ⟨fun _ => rfl, fun _ => rfl, fun _ => rfl⟩
  | cons now ts ih =>
    have hone := samePriv_proc (h now List.mem_cons_self)
    have hmore := ih ((hone.privStays_iff ts).mpr fun t ht => h t (List.mem_cons_of_mem now ht))
    exact ⟨fun i => (hmore.valid i).trans (hone.valid i),
      fun i => (hmore.identity i).trans (hone.identity i),
      fun i => (hmore.start i).trans (hone.start i)⟩

end IdentityKeys

/-! ### All passes -/

open IdentityKeys

/-- The property of a run is that of its first pass and of the others. -/
theorem IdentityTimeout.tail {s : IdentityKeys Mat} {now : BitVec 32} {ts : List (BitVec 32)}
    (h : IdentityTimeout s (now :: ts)) : IdentityTimeout (meshSwitchIdentityProc s now) ts where
  stops past t later rest hts := h.stops (now :: past) t later rest (congrArg (now :: ·) hts)
  others past t rest hts := h.others (now :: past) t rest (congrArg (now :: ·) hts)
  second past rest hts i :=
    (h.second (now :: past) rest (congrArg (now :: ·) hts) i).trans
      (h.second [now] ts rfl i).symm
  saves past t rest hts := h.saves (now :: past) t rest (congrArg (now :: ·) hts)
  rests past t rest hts := h.rests (now :: past) t rest (congrArg (now :: ·) hts)

theorem privStays_of_timeout {s : IdentityKeys Mat} {ts : List (BitVec 32)}
    (h : IdentityTimeout s ts) : s.PrivStays ts := by
  induction ts generalizing s with
  | nil =>
    intro now hmem
    cases hmem
  | cons now ts ih =>
    -- the pass leaves the private identity as it is
    have hfirst : ∀ i, ¬ (s.key i).expires now .priv := by
      intro i hexp
      have hstop : ((meshSwitchIdentityProc s now).key i).identity .priv =
        privateNodeIdentityDisable := h.stops [] now [] ts rfl i .priv hexp
      rw [proc_key, IdentityKey.switchIdentity_priv] at hstop
      have hruns : (s.key i).identity .priv = privateNodeIdentityEnable := by
        unfold IdentityKey.expires at hexp
        rw [Bool.and_eq_true, Bool.and_eq_true, beq_iff_eq] at hexp
        exact hexp.1.2
      exact absurd (hruns.symm.trans hstop) (by decide)
    have hrest := ((samePriv_proc hfirst).privStays_iff ts).mp (ih h.tail)
    intro t ht
    rcases List.mem_cons.mp ht with rfl | ht
    · exact hfirst
    · exact hrest t ht

theorem timeout_of_privStays {s : IdentityKeys Mat} {ts : List (BitVec 32)} (h : s.PrivStays ts) :
    IdentityTimeout s ts := by
  -- in no state of the run a private identity expires
  have hpriv : ∀ past now rest, ts = past ++ now :: rest → ∀ i,
      ¬ ((s.after past).key i).expires now .priv := by
    rintro past now rest rfl i
    have hpast : s.PrivStays past := fun t ht => h t (List.mem_append_left _ ht)
    rw [(samePriv_after hpast).expires]
    exact h now (List.mem_append_right _ List.mem_cons_self) i
  refine ⟨?_, ?_, fun past _ _ => s.after_new past, ?_, ?_⟩
  · intro past now later rest hts i kind hexp
    cases kind with
    | node =>
      rw [List.append_cons, s.after_append]
      refine after_node_stopped ?_ later
      rw [after_concat, proc_key, IdentityKey.switchIdentity_node, if_pos hexp]
    | priv => exact absurd hexp (hpriv past now _ hts i)
  · intro past now rest hts i kind hexp
    rw [after_concat, proc_key]
    cases kind with
    | node =>
      refine ⟨?_, IdentityKey.switchIdentity_startIdentityS _ _⟩
      rw [IdentityKey.switchIdentity_node, if_neg hexp]
    | priv =>
      exact ⟨IdentityKey.switchIdentity_priv _ _, IdentityKey.switchIdentity_privIdentityS hexp⟩
  · intro past now rest _ hexp
    rw [after_concat]
    exact proc_saved hexp
  · intro past now rest _ hexp
    rw [after_concat]
    exact proc_rests hexp

/-- **Identities time out** exactly in the runs in which no private identity does. -/
theorem identityTimeout_iff (s : IdentityKeys Mat) (ts : List (BitVec 32)) :
    IdentityTimeout s ts ↔ s.PrivStays ts :=
  ⟨privStays_of_timeout, timeout_of_privStays⟩

/-- Keys with a private identity that was started at second 0. -/
def privateKeys : IdentityKeys Unit where
  key _ :=
    let netKey := MeshNetKey.zero ⟨fun _ => (), (), fun _ => 0⟩
    ⟨⟨{ netKey with valid := true, privIdentity := privateNodeIdentityEnable }, netKey⟩, 0, 0⟩
  saved := []

/-- After 61 seconds, and again after 62. -/
theorem identityTimeout_refuted :
    ¬ ∀ (s : IdentityKeys Unit) (ts : List (BitVec 32)), IdentityTimeout s ts := by
  intro h
  have hlist := h privateKeys [61, 62]
  have hstop := hlist.stops [] 61 [] [62] rfl ⟨0, by decide⟩ .priv (by decide)
  revert hstop
  decide

end PirMesh
