import PirMesh.Library.BubbleSort
import PirMesh.Library.Counters
import PirMesh.Library.Run

/-! # Timer — The software timers of `blt_soft_timer.c`

A table of at most `MAX_TIMER_NUM` timers, kept in the order of their expiry times
on a 32-bit counter of 16 ticks a microsecond.  The pass over the table calls the
expired timers; what a callback returns removes its timer, re-arms it, or re-arms it
with a new interval.  The head of the table is the application wake-up of the power
manager, when it is near enough.

The counter is read once in each function (`now`).

`processLoop` deletes from the array it runs over.  On the list of the timers it is
`passRest`, which reads each timer once, left to right, and after a deletion leaves
the next one unread (`processLoop_spec`).  When no deleted timer stands directly
before an expired one (`NoSkip`) the unread timers are not due, and the pass calls the
expired timers and leaves the others and the re-armed ones (`passRest_eq`). -/

namespace PirMesh

open Circular

abbrev Tick := BitVec 32

def maxTimerNum : Nat := 4

/-- `CLOCK_16M_SYS_TIMER_CLK_1US` -/
def clk1us : Tick := 16

/-- `CLOCK_16M_SYS_TIMER_CLK_1MS` -/
def clk1ms : Nat := 16 * 1000

/-- `BLT_TIMER_SAFE_MARGIN_PRE`: 128 us. -/
def bltTimerSafeMarginPre : Tick := 16 <<< 7

/-- `BLT_TIMER_SAFE_MARGIN_POST`: 4 s. -/
def bltTimerSafeMarginPost : Nat := (16 * 1000 * 1000) <<< 2

/-- `TIME_COMPARE_BIG`: also true when the two are equal. -/
def timeCompareBig (t1 t2 : Tick) : Bool := decide (NotBefore (2 ^ 30) t2 t1)

def bltIsTimerExpired (t now : Tick) : Bool :=
  decide ((now + bltTimerSafeMarginPre - t).toNat < bltTimerSafeMarginPost)

/-- A callback is a function pointer other than `NULL`. -/
structure BltTimeEvent (Cb : Type) where
  cb : Cb
  t : Tick
  interval : Tick

structure BltSoftTimer (Cb : Type) where
  timer : Nat → BltTimeEvent Cb
  currentNum : Nat

/-- The table and what `bls_pm_setAppWakeupLowPower` was last told. -/
structure TimerState (Cb : Type) where
  blt : BltSoftTimer Cb
  appWakeup : Option Tick

variable {Cb : Type}

/-- The timers of the table. -/
def BltSoftTimer.timers (s : BltSoftTimer Cb) : List (BltTimeEvent Cb) :=
  (List.range s.currentNum).map s.timer

def BltSoftTimer.set (s : BltSoftTimer Cb) (i : Nat) (x : BltTimeEvent Cb) : BltSoftTimer Cb :=
  { s with timer := Function.update s.timer i x }

def bltSoftTimerSort (s : BltSoftTimer Cb) : BltSoftTimer Cb :=
  { s with timer := BubbleSort.sort (fun x y => timeCompareBig x.t y.t) s.currentNum s.timer }

/-- The wake-up at the head of the table if that is less than 3 s away, else none. -/
def nearWakeup (s : BltSoftTimer Cb) (now : Tick) : Option Tick :=
  if ((s.timer 0).t - now).toNat < 3000 * clk1ms then some (s.timer 0).t else none

/-! ### Adding and deleting -/

/-- The state after the call, and whether there was room. -/
def bltSoftTimerAdd (now : Tick) (func : Cb) (intervalUs : Tick) (s : TimerState Cb) :
    TimerState Cb × Bool :=
  if s.blt.currentNum ≥ maxTimerNum then (s, false)
  else
    let interval := intervalUs * clk1us
    let blt := bltSoftTimerSort
      { timer := Function.update s.blt.timer s.blt.currentNum ⟨func, now + interval, interval⟩
        currentNum := s.blt.currentNum + 1 }
    (⟨blt, some (blt.timer 0).t⟩, true)

/-- The entries behind `index` move one place down. -/
def bltSoftTimerDeleteByIndex (index : Nat) (s : BltSoftTimer Cb) : BltSoftTimer Cb where
  timer i := if index ≤ i ∧ i < s.currentNum - 1 then s.timer (i + 1) else s.timer i
  currentNum := s.currentNum - 1

/-- The first timer with the callback is deleted; the head is looked at only when it was
the head, and even if no timer is left. -/
def bltSoftTimerDelete [DecidableEq Cb] (now : Tick) (func : Cb) (s : TimerState Cb) :
    TimerState Cb × Bool :=
  match (List.range s.blt.currentNum).find? fun i => (s.blt.timer i).cb = func with
  | some i =>
    let blt := bltSoftTimerDeleteByIndex i s.blt
    (⟨blt, if i = 0 then nearWakeup blt now else s.appWakeup⟩, true)
  | none => (s, false)

/-! ### The pass -/

/-- The table during the pass, the timers called so far, and `change_flg`. -/
structure Pass (Cb : Type) where
  blt : BltSoftTimer Cb
  calls : List (BltTimeEvent Cb)
  changeFlg : Bool

/-- A called timer whose callback returned `result`, which is not negative. -/
def rearm (now : Tick) (result : Int) (x : BltTimeEvent Cb) : BltTimeEvent Cb :=
  if result = 0 then { x with t := now + x.interval }
  else
    let interval := BitVec.ofInt 32 result * clk1us
    { x with interval, t := now + interval }

/-- The body of the loop at index `i`; the `k`-th callback of the pass returns `res k`. -/
def processOne (now : Tick) (res : Nat → Int) (i : Nat) (p : Pass Cb) : Pass Cb :=
  let x := p.blt.timer i
  if bltIsTimerExpired x.t now then
    let result := res p.calls.length
    let calls := p.calls ++ [x]
    if result < 0 then ⟨bltSoftTimerDeleteByIndex i p.blt, calls, p.changeFlg⟩
    else ⟨p.blt.set i (rearm now result x), calls, true⟩
  else p

/-- The loop from index `i`.  The table only shrinks, so `fuel` places are enough. -/
def processLoop (now : Tick) (res : Nat → Int) : Nat → Nat → Pass Cb → Pass Cb
  | 0, _, p => p
  | fuel + 1, i, p =>
    if i < p.blt.currentNum then processLoop now res fuel (i + 1) (processOne now res i p) else p

/-- The state after the pass, and the timers called. -/
def bltSoftTimerProcess (now : Tick) (res : Nat → Int) (s : TimerState Cb) :
    TimerState Cb × List (BltTimeEvent Cb) :=
  if s.blt.currentNum = 0 then ({ s with appWakeup := none }, [])
  else if !bltIsTimerExpired (s.blt.timer 0).t now then (s, [])
  else
    let p := processLoop now res s.blt.currentNum 0 ⟨s.blt, [], false⟩
    if p.blt.currentNum ≠ 0 then
      let blt := if p.changeFlg then bltSoftTimerSort p.blt else p.blt
      (⟨blt, nearWakeup blt now⟩, p.calls)
    else (⟨p.blt, none⟩, p.calls)

/-! ### Runs -/

inductive TimerEvent (Cb : Type)
  | add (now : Tick) (func : Cb) (intervalUs : Tick)
  | delete (now : Tick) (func : Cb)
  | process (now : Tick) (res : Nat → Int)

def timerStep [DecidableEq Cb] (s : TimerState Cb) : TimerEvent Cb → TimerState Cb
  | .add now func intervalUs => (bltSoftTimerAdd now func intervalUs s).1
  | .delete now func => (bltSoftTimerDelete now func s).1
  | .process now res => (bltSoftTimerProcess now res s).1

/-- An empty table. -/
def timerSys (Cb : Type) [DecidableEq Cb] : Run.Sys (TimerState Cb) (TimerEvent Cb) :=
  .det (fun s => s.blt.currentNum = 0) timerStep

/-! ### The pass as a function of the list -/

variable {Cb : Type} {s : BltSoftTimer Cb} {p : Pass Cb} {x y : BltTimeEvent Cb}
  {pre rest l : List (BltTimeEvent Cb)} {now : Tick} {res : Nat → Int} {i k : Nat}

/-! ### The list of the timers -/

@[simp] theorem length_timers : s.timers.length = s.currentNum := by
  simp [BltSoftTimer.timers]

theorem getElem_timers (h : i < s.timers.length) : s.timers[i] = s.timer i := by
  simp [BltSoftTimer.timers]

theorem timers_set (s : BltSoftTimer Cb) (i : Nat) (y : BltTimeEvent Cb) :
    (s.set i y).timers = s.timers.set i y := by
  refine List.ext_getElem (by simp [BltSoftTimer.set]) fun j h _ => ?_
  rw [getElem_timers, List.getElem_set]
  by_cases hj : i = j
  · rw [if_pos hj, hj]
    exact Function.update_self ..
  · rw [if_neg hj, getElem_timers]
    exact Function.update_of_ne (Ne.symm hj) ..

theorem timers_delete (h : i < s.currentNum) :
    (bltSoftTimerDeleteByIndex i s).timers = s.timers.eraseIdx i := by
  refine List.ext_getElem ?_ fun j hj _ => ?_
  · rw [List.length_eraseIdx_of_lt (by simpa using h)]
    simp [bltSoftTimerDeleteByIndex]
  · have hlt : j < s.currentNum - 1 := by simpa [bltSoftTimerDeleteByIndex] using hj
    rw [getElem_timers, List.getElem_eraseIdx]
    by_cases hji : j < i
    · rw [dif_pos hji, getElem_timers]
      exact if_neg fun hc => absurd hc.1 (by omega)
    · rw [dif_neg hji, getElem_timers]
      exact if_pos ⟨by omega, hlt⟩

theorem currentNum_of_timers (h : s.timers = pre ++ rest) :
    s.currentNum = pre.length + rest.length := by
  rw [← length_timers, h, List.length_append]

theorem timer_of_timers (h : s.timers = pre ++ x :: rest) : s.timer pre.length = x := by
  have hlt : pre.length < s.timers.length := by
    rw [h, List.length_append, List.length_cons]
    omega
  rw [← getElem_timers hlt]
  simp only [h, List.getElem_append_right (Nat.le_refl _), Nat.sub_self, List.getElem_cons_zero]

/-! ### The pass on the list -/

/-- What the loop leaves of the timers it has not come to; `skip` says that it has just
deleted one, so that the next timer has taken the index it is past. -/
def passRest (now : Tick) (res : Nat → Int) :
    Nat → Bool → List (BltTimeEvent Cb) → List (BltTimeEvent Cb)
  | _, _, [] => []
  | k, true, y :: l => y :: passRest now res k false l
  | k, false, x :: l =>
    if bltIsTimerExpired x.t now then
      if res k < 0 then passRest now res (k + 1) true l
      else rearm now (res k) x :: passRest now res (k + 1) false l
    else x :: passRest now res k false l

theorem length_passRest_le (k : Nat) (skip : Bool) (l : List (BltTimeEvent Cb)) :
    (passRest now res k skip l).length ≤ l.length := by
  induction l generalizing k skip with
  | nil => exact Nat.le_refl _
  | cons x l ih =>
    cases skip with
    | true => exact Nat.succ_le_succ (ih ..)
    | false =>
      unfold passRest
      split
      · split
        · exact (ih ..).trans (Nat.le_succ _)
        · exact Nat.succ_le_succ (ih ..)
      · exact Nat.succ_le_succ (ih ..)

/-- The timers the loop calls. -/
def passCalls (now : Tick) (res : Nat → Int) :
    Nat → Bool → List (BltTimeEvent Cb) → List (BltTimeEvent Cb)
  | _, _, [] => []
  | k, true, _ :: l => passCalls now res k false l
  | k, false, x :: l =>
    if bltIsTimerExpired x.t now then x :: passCalls now res (k + 1) (decide (res k < 0)) l
    else passCalls now res k false l

theorem processOne_quiet (h : bltIsTimerExpired (p.blt.timer i).t now = false) :
    processOne now res i p = p := by
  simp only [processOne, h, Bool.false_eq_true, if_false]

theorem processOne_delete (h : bltIsTimerExpired (p.blt.timer i).t now = true)
    (hres : res p.calls.length < 0) : processOne now res i p =
      ⟨bltSoftTimerDeleteByIndex i p.blt, p.calls ++ [p.blt.timer i], p.changeFlg⟩ := by
  simp only [processOne, h, if_true, if_pos hres]

theorem processOne_rearm (h : bltIsTimerExpired (p.blt.timer i).t now = true)
    (hres : ¬ res p.calls.length < 0) : processOne now res i p =
      ⟨p.blt.set i (rearm now (res p.calls.length) (p.blt.timer i)), p.calls ++ [p.blt.timer i],
        true⟩ := by
  simp only [processOne, h, if_true, if_neg hres]

/-- The loop at an index that is past the table, or on the timer there. -/
theorem processLoop_end {fuel : Nat} (h : p.blt.currentNum ≤ i) :
    processLoop now res fuel i p = p := by
  cases fuel with
  | zero => rfl
  | succ fuel => rw [processLoop, if_neg (Nat.not_lt.mpr h)]

theorem processLoop_next {fuel : Nat} (h : i < p.blt.currentNum) :
    processLoop now res (fuel + 1) i p =
      processLoop now res fuel (i + 1) (processOne now res i p) := by
  rw [processLoop, if_pos h]

theorem changeFlg_processLoop {fuel : Nat} (h : p.changeFlg = true) :
    (processLoop now res fuel i p).changeFlg = true := by
  induction fuel generalizing i p with
  | zero => exact h
  | succ fuel ih =>
    rw [processLoop]
    split
    · refine ih ?_
      unfold processOne
      dsimp only
      split
      · split
        · exact h
        · rfl
      · exact h
    · exact h

/-- **The loop** on the list: the timers it leaves, the calls it makes, and, as long as
`change_flg` is not set, that it only deletes. -/
theorem processLoop_spec (now : Tick) (res : Nat → Int) {fuel : Nat} (hfuel : rest.length ≤ fuel)
    (h : p.blt.timers = pre ++ rest) :
    (processLoop now res fuel pre.length p).blt.timers =
        pre ++ passRest now res p.calls.length false rest ∧
      (processLoop now res fuel pre.length p).calls =
        p.calls ++ passCalls now res p.calls.length false rest ∧
      ((processLoop now res fuel pre.length p).changeFlg = false →
        (passRest now res p.calls.length false rest).Sublist rest) := by
  induction fuel generalizing pre rest p with
  | zero =>
    obtain rfl := List.length_eq_zero_iff.mp (Nat.le_zero.mp hfuel)
    exact ⟨h, (List.append_nil _).symm, fun _ => .slnil⟩
  | succ fuel ih =>
    cases rest with
    | nil =>
      rw [processLoop_end (p := p) (i := pre.length) (currentNum_of_timers h).le]
      exact ⟨h, (List.append_nil _).symm, fun _ => .slnil⟩
    | cons x rest =>
      have hfuel' : rest.length ≤ fuel := Nat.le_of_succ_le_succ hfuel
      have hx := timer_of_timers h
      have hcnt := currentNum_of_timers h
      rw [List.length_cons] at hcnt
      rw [processLoop_next (by omega)]
      -- the index moves on: the timer there goes to the part the loop is past
      have hpast : pre.length + 1 = (pre ++ [x]).length := by simp
      cases hexp : bltIsTimerExpired x.t now with
      | false =>
        have hone : processOne now res pre.length p = p := processOne_quiet (by rw [hx]; exact hexp)
        have hsplit : p.blt.timers = (pre ++ [x]) ++ rest := by simp [h]
        obtain ⟨ht, hc, hf⟩ := ih hfuel' hsplit
        rw [hone, hpast]
        simp only [passRest, passCalls, hexp, Bool.false_eq_true, if_false]
        exact ⟨ht.trans (List.append_cons ..).symm, hc, fun hflg => (hf hflg).cons_cons x⟩
      | true =>
        have hexp' : bltIsTimerExpired (p.blt.timer pre.length).t now = true := by
          rw [hx]
          exact hexp
        simp only [passRest, passCalls, hexp, if_true]
        by_cases hres : res p.calls.length < 0
        · have hdel : (bltSoftTimerDeleteByIndex pre.length p.blt).timers = pre ++ rest := by
            rw [timers_delete (by omega), h, List.eraseIdx_append_of_length_le (Nat.le_refl _),
              Nat.sub_self]
            rfl
          rw [processOne_delete hexp' hres, hx, if_pos hres, decide_eq_true hres]
          cases rest with
          | nil =>
            rw [processLoop_end (by simpa using (currentNum_of_timers hdel).le.trans (by simp))]
            exact ⟨hdel, rfl, fun _ => .cons _ .slnil⟩
          | cons y rest =>
            -- the index is past `y` as well, which now stands where `x` did
            have hsplit : (bltSoftTimerDeleteByIndex pre.length p.blt).timers =
                (pre ++ [y]) ++ rest := by
              rw [hdel]
              simp
            have hfuel'' : rest.length ≤ fuel := Nat.le_of_succ_le hfuel'
            obtain ⟨ht, hc, hf⟩ := ih (p := ⟨bltSoftTimerDeleteByIndex pre.length p.blt,
              p.calls ++ [x], p.changeFlg⟩) hfuel'' hsplit
            have hlen : (p.calls ++ [x]).length = p.calls.length + 1 := List.length_append ..
            have hpast' : pre.length + 1 = (pre ++ [y]).length := by simp
            rw [hpast']
            simp only [hlen] at ht hc hf
            exact ⟨ht.trans (List.append_cons ..).symm, hc.trans (List.append_assoc ..),
              fun hflg => ((hf hflg).cons_cons y).cons x⟩
        · have hset : (p.blt.set pre.length (rearm now (res p.calls.length) x)).timers =
              (pre ++ [rearm now (res p.calls.length) x]) ++ rest := by
            rw [timers_set, h, List.set_append_right _ _ (Nat.le_refl _), Nat.sub_self]
            simp
          obtain ⟨ht, hc, hf⟩ := ih (p := ⟨p.blt.set pre.length (rearm now (res p.calls.length) x),
            p.calls ++ [x], true⟩) hfuel' hset
          have hlen : (p.calls ++ [x]).length = p.calls.length + 1 := List.length_append ..
          have hpast' : pre.length + 1 =
            (pre ++ [rearm now (res p.calls.length) x]).length := by simp
          rw [processOne_rearm hexp' hres, hx, if_neg hres, decide_eq_false hres, hpast']
          simp only [hlen] at ht hc
          refine ⟨ht.trans (List.append_cons ..).symm, hc.trans (List.append_assoc ..),
            fun hflg => ?_⟩
          rw [changeFlg_processLoop rfl] at hflg
          cases hflg

/-! ### Without a skipped timer -/

/-- The timers a pass keeps: those that are not due, and those whose callback re-armed them.
The `k`-th callback of the pass returns `res k`. -/
def survivors (now : Tick) (res : Nat → Int) : Nat → List (BltTimeEvent Cb) → List (BltTimeEvent Cb)
  | _, [] => []
  | k, x :: l =>
    if bltIsTimerExpired x.t now then
      if res k < 0 then survivors now res (k + 1) l
      else rearm now (res k) x :: survivors now res (k + 1) l
    else x :: survivors now res k l

/-- No timer that is removed stands directly before one that is due. -/
def NoSkip (now : Tick) (res : Nat → Int) : Nat → List (BltTimeEvent Cb) → Prop
  | _, [] => True
  | k, x :: l =>
    if bltIsTimerExpired x.t now then
      (res k < 0 → ∀ y ∈ l.head?, bltIsTimerExpired y.t now = false) ∧ NoSkip now res (k + 1) l
    else NoSkip now res k l

instance decidableNoSkip (now : Tick) (res : Nat → Int) :
    (k : Nat) → (l : List (BltTimeEvent Cb)) → Decidable (NoSkip now res k l)
  | _, [] => isTrue trivial
  | k, x :: l =>
    have := decidableNoSkip now res (k + 1) l
    have := decidableNoSkip now res k l
    inferInstanceAs (Decidable (if bltIsTimerExpired x.t now then
      (res k < 0 → ∀ y ∈ l.head?, bltIsTimerExpired y.t now = false) ∧ NoSkip now res (k + 1) l
      else NoSkip now res k l))

/-- With nothing to skip, a skipped timer is one that would have been left alone. -/
theorem passRest_eq_aux (l : List (BltTimeEvent Cb)) (k : Nat)
    (h : NoSkip now res k l) (skip : Bool)
    (hskip : skip = true → ∀ y ∈ l.head?, bltIsTimerExpired y.t now = false) :
    passRest now res k skip l = survivors now res k l ∧
      passCalls now res k skip l = l.filter fun x => bltIsTimerExpired x.t now := by
  induction l generalizing k skip with
  | nil => exact ⟨rfl, rfl⟩
  | cons x l ih =>
    cases hexp : bltIsTimerExpired x.t now with
    | false =>
      simp only [NoSkip, hexp, Bool.false_eq_true, if_false] at h
      obtain ⟨hrest, hcalls⟩ := ih k h false nofun
      cases skip <;>
        simp only [passRest, passCalls, survivors, hexp, Bool.false_eq_true, if_false,
          hrest, hcalls,
          List.filter_cons, and_self]
    | true =>
      cases skip with
      | true => exact absurd (hskip rfl x rfl) (by rw [hexp]; decide)
      | false =>
        simp only [NoSkip, hexp, if_true] at h
        obtain ⟨hrest, hcalls⟩ := ih (k + 1) h.2 (decide (res k < 0)) fun hres =>
          h.1 (of_decide_eq_true hres)
        by_cases hres : res k < 0
        · rw [decide_eq_true hres] at hrest hcalls
          simp only [passRest, passCalls, survivors, hexp, if_true, if_pos hres,
            decide_eq_true hres,
            hrest, hcalls, List.filter_cons, and_self]
        · rw [decide_eq_false hres] at hrest hcalls
          simp only [passRest, passCalls, survivors, hexp, if_true, if_neg hres,
            decide_eq_false hres,
            hrest, hcalls, List.filter_cons, and_self]

theorem passRest_eq (h : NoSkip now res 0 l) :
    passRest now res 0 false l = survivors now res 0 l ∧
      passCalls now res 0 false l = l.filter fun x => bltIsTimerExpired x.t now :=
  passRest_eq_aux l 0 h false nofun

end PirMesh
