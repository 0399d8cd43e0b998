import Mathlib.Data.List.Basic
import Mathlib.Order.Lattice

/-! # Library — Queues whose head is sent again and again

An entry comes with a number `n` and is to be given `n + 1` times, the oldest first.  The number
left is kept with the oldest entry, which leaves with the last time.  `Serves` says what was given
when this is what is left; adding an entry (`Serves.push`), giving it once of several times
(`Serves.once`) and giving it for as often as is left (`Serves.last`) keep it.

Or the values accepted by a queue are numbered.  An entry knows which of them it holds
and for which its place was made (`Tag`): a newer value may take the place of one that
is there.  The head is sent any number of times before it is popped; a full queue
drops it.  `Hist` records what happened, and `Ok` relates it to the queue: as long as
the head is popped only after it was sent (`Ok.pop`) and replaced only before
(`Ok.replace`), no value is lost (`Ok.delivered`) and the first transmissions are in
the order of the places (`Ok.inOrder`). -/

/-! ### An entry that is given several times -/

namespace Repeats

variable {α : Type} {pushed queue done : List (α × ℕ)} {out : List α} {a : α} {n : ℕ}

/-- Each entry as often as it is to be given. -/
def expand (l : List (α × ℕ)) : List α := l.flatMap fun e => List.replicate (e.2 + 1) e.1

@[simp] theorem expand_nil : expand ([] : List (α × ℕ)) = [] := rfl

theorem expand_concat (l : List (α × ℕ)) (a : α) (n : ℕ) :
    expand (l ++ [(a, n)]) = expand l ++ List.replicate (n + 1) a := by
  unfold expand
  rw [List.flatMap_append, List.flatMap_singleton]

/-- Of the entries that were pushed the first are done, and `out` is what they were to give; of the
next one some times were given too, when there is one, and the others wait. -/
def Serves (pushed queue : List (α × ℕ)) (out : List α) : Prop :=
  queue = [] ∧ out = expand pushed ∨
    ∃ done a n k rest, k ≤ n ∧ pushed = done ++ (a, n) :: rest ∧ queue = (a, n - k) :: rest ∧
      out = expand done ++ List.replicate k a

theorem Serves.start (done : List (α × ℕ)) : ∀ rest, Serves (done ++ rest) rest (expand done)
  | [] => .inl ⟨rfl, by rw [List.append_nil]⟩
  | (a, n) :: rest =>
    .inr ⟨done, a, n, 0, rest, n.zero_le, rfl, by rw [Nat.sub_zero], (List.append_nil _).symm⟩

theorem Serves.push (h : Serves pushed queue out) (e : α × ℕ) :
    Serves (pushed ++ [e]) (queue ++ [e]) out := by
  rcases h with ⟨rfl, rfl⟩ | ⟨done, a, n, k, rest, hk, rfl, rfl, rfl⟩
  · exact .start pushed [e]
  · exact .inr ⟨done, a, n, k, rest ++ [e], hk, List.append_assoc _ _ _, rfl, rfl⟩

theorem Serves.once (h : Serves pushed ((a, n + 1) :: queue) out) :
    Serves pushed ((a, n) :: queue) (out ++ [a]) := by
  rcases h with ⟨hnil, -⟩ | ⟨done, b, m, k, rest, hk, rfl, hqueue, rfl⟩
  · exact absurd hnil (List.cons_ne_nil _ _)
  · obtain ⟨hhead, rfl⟩ := List.cons.inj hqueue
    obtain ⟨rfl, hn⟩ := Prod.mk.inj hhead
    refine .inr ⟨done, a, m, k + 1, queue, by omega, rfl, ?_, ?_⟩
    · rw [show n = m - (k + 1) by omega]
    · rw [List.append_assoc, List.replicate_succ']

theorem Serves.last (h : Serves pushed ((a, n) :: queue) out) :
    Serves pushed queue (out ++ List.replicate (n + 1) a) := by
  rcases h with ⟨hnil, -⟩ | ⟨done, b, m, k, rest, hk, rfl, hqueue, rfl⟩
  · exact absurd hnil (List.cons_ne_nil _ _)
  · obtain ⟨hhead, rfl⟩ := List.cons.inj hqueue
    obtain ⟨rfl, rfl⟩ := Prod.mk.inj hhead
    have htimes : m + 1 = k + (m - k + 1) := by omega
    rw [List.append_assoc, ← List.replicate_add, ← htimes, ← expand_concat, List.append_cons]
    exact .start _ queue

end Repeats

/-! ### Entries with numbers -/

namespace NumberedQueue

open List

variable {α : Type}

structure Tag where
  no : ℕ
  place : ℕ
  deriving DecidableEq, Repr

structure Sent (α : Type) where
  tag : Tag
  val : α
  /-- What was sent before of this head, unless it was dropped since. -/
  before : Option α
  deriving DecidableEq, Repr

structure Hist (α : Type) where
  accepted : List α
  replaced : List ℕ
  dropped : List ℕ
  sent : List (Sent α)
  /-- What was sent of the head. -/
  last : Option α
  deriving DecidableEq, Repr

namespace Hist

def empty : Hist α := ⟨[], [], [], [], none⟩

/-- The number of the next value. -/
def next (h : Hist α) : ℕ := h.accepted.length

def push (h : Hist α) (v : α) : Hist α := { h with accepted := h.accepted ++ [v] }

/-- `v` takes the place of the value `no`. -/
def replace (h : Hist α) (no : ℕ) (v : α) : Hist α :=
  { h with accepted := h.accepted ++ [v], replaced := h.replaced ++ [no] }

/-- The value `no` is dropped. -/
def drop (h : Hist α) (no : ℕ) : Hist α :=
  { h with dropped := h.dropped ++ [no], last := none }

def forget (h : Hist α) : Hist α := { h with last := none }

def send (h : Hist α) (tag : Tag) (v : α) : Hist α :=
  { h with sent := h.sent ++ [⟨tag, v, h.last⟩], last := some v }

/-- The places sent from. -/
def places (h : Hist α) : List ℕ := h.sent.map (·.tag.place)

/-- A value is in the queue, or was sent, replaced or dropped. -/
def Delivered (q : List (α × Tag)) (h : Hist α) : Prop :=
  ∀ n v, h.accepted[n]? = some v →
    (∃ e ∈ q, e.2.no = n ∧ e.1 = v) ∨ (∃ t ∈ h.sent, t.tag.no = n ∧ t.val = v) ∨
      n ∈ h.replaced ∨ n ∈ h.dropped

/-- Of two places the earlier is sent from first. -/
def InOrder (h : Hist α) : Prop :=
  ∀ i j, i < j → i ∈ h.places → j ∈ h.places → h.places.idxOf i < h.places.idxOf j

def SameAnswer (h : Hist α) : Prop := ∀ t ∈ h.sent, ∀ v ∈ t.before, t.val = v

end Hist

structure Ok (q : List (α × Tag)) (h : Hist α) : Prop where
  content : ∀ e ∈ q, h.accepted[e.2.no]? = some e.1
  sentContent : ∀ t ∈ h.sent, h.accepted[t.tag.no]? = some t.val
  increasing : q.Pairwise (·.2.place < ·.2.place)
  placeLt : ∀ e ∈ q, e.2.place < h.next
  sorted : h.sent.Pairwise (·.tag.place ≤ ·.tag.place)
  sentLt : ∀ t ∈ h.sent, t.tag.place < h.next
  behind : ∀ t ∈ h.sent, ∀ e ∈ q, t.tag.place ≤ e.2.place
  kept : ∀ n < h.next, (∃ e ∈ q, e.2.no = n) ∨ (∃ t ∈ h.sent, t.tag.no = n) ∨ n ∈ h.replaced ∨
    n ∈ h.dropped
  lastHead : ∀ v ∈ h.last, ∃ e, q.head? = some e ∧ e.1 = v ∧ ∃ t ∈ h.sent, t.tag.no = e.2.no
  same : h.SameAnswer

namespace Ok

variable {q : List (α × Tag)} {h : Hist α} {v : α}

theorem empty : Ok ([] : List (α × Tag)) Hist.empty where
  content := forall_mem_nil _
  sentContent := forall_mem_nil _
  increasing := .nil
  placeLt := forall_mem_nil _
  sorted := .nil
  sentLt := forall_mem_nil _
  behind := forall_mem_nil _
  kept n hn := absurd hn (Nat.not_lt_zero n)
  lastHead v hv := by cases hv
  same := forall_mem_nil _

/-! ### What holds of the history -/

theorem delivered (ok : Ok q h) : h.Delivered q := by
  intro n v hv
  obtain ⟨hn, rfl⟩ := List.getElem?_eq_some_iff.mp hv
  obtain ⟨e, he, rfl⟩ | ⟨t, ht, rfl⟩ | hr | hd := ok.kept n hn
  · exact .inl ⟨e, he, rfl, Option.some.inj ((ok.content e he).symm.trans hv)⟩
  · exact .inr (.inl ⟨t, ht, rfl, Option.some.inj ((ok.sentContent t ht).symm.trans hv)⟩)
  · exact .inr (.inr (.inl hr))
  · exact .inr (.inr (.inr hd))

theorem inOrder (ok : Ok q h) : h.InOrder := by
  intro i j hij hi hj
  have hsorted : h.places.Pairwise (· ≤ ·) := pairwise_map.mpr ok.sorted
  by_contra hle
  have hne : h.places.idxOf j ≠ h.places.idxOf i := fun heq => hij.ne' ((idxOf_inj hj).mp heq)
  have hlt := (Nat.le_of_not_lt hle).lt_of_ne hne
  have hji := pairwise_iff_getElem.mp hsorted _ _ (idxOf_lt_length_of_mem hj)
    (idxOf_lt_length_of_mem hi) hlt
  rw [getElem_idxOf, getElem_idxOf] at hji
  exact (hij.trans_le hji).false

/-! ### The steps -/

theorem forget (ok : Ok q h) : Ok q h.forget :=
  { ok with lastHead := fun v hv => by cases hv }

theorem getElem?_accepted {n : ℕ} {w : α} (hn : h.accepted[n]? = some w) (v : α) :
    (h.accepted ++ [v])[n]? = some w := by
  obtain ⟨hlt, -⟩ := List.getElem?_eq_some_iff.mp hn
  rwa [getElem?_append_left hlt]

theorem lt_next_push (v : α) {n : ℕ} (hn : n < h.next) : n < (h.push v).next := by
  unfold Hist.push Hist.next at *
  rw [length_append]
  exact Nat.lt_add_right _ hn

/-- A new value goes behind the others. -/
theorem push (ok : Ok q h) (v : α) : Ok (q ++ [(v, ⟨h.next, h.next⟩)]) (h.push v) where
  content e he := by
    obtain he | he := mem_append.mp he
    · exact getElem?_accepted (ok.content e he) v
    · obtain rfl := mem_singleton.mp he
      exact getElem?_concat_length
  sentContent t ht := getElem?_accepted (ok.sentContent t ht) v
  increasing := by
    refine pairwise_append.mpr ⟨ok.increasing, pairwise_singleton _ _, fun e he f hf => ?_⟩
    obtain rfl := mem_singleton.mp hf
    exact ok.placeLt e he
  placeLt e he := by
    obtain he | he := mem_append.mp he
    · exact lt_next_push v (ok.placeLt e he)
    · obtain rfl := mem_singleton.mp he
      simp [Hist.push, Hist.next]
  sorted := ok.sorted
  sentLt t ht := lt_next_push v (ok.sentLt t ht)
  behind t ht e he := by
    obtain he | he := mem_append.mp he
    · exact ok.behind t ht e he
    · obtain rfl := mem_singleton.mp he
      exact (ok.sentLt t ht).le
  kept n hn := by
    obtain hn | rfl : n < h.next ∨ n = h.next := by
      simp only [Hist.push, Hist.next, length_append, length_singleton] at hn ⊢
      omega
    · obtain ⟨e, he, rfl⟩ | hrest := ok.kept n hn
      · exact .inl ⟨e, mem_append_left _ he, rfl⟩
      · exact .inr hrest
    · exact .inl ⟨_, mem_append_right _ (mem_singleton.mpr rfl), rfl⟩
  lastHead w hw := by
    obtain ⟨e, he, hew, hs⟩ := ok.lastHead w hw
    exact ⟨e, by rw [head?_append, he]; rfl, hew, hs⟩
  same := ok.same

/-- The head leaves after it was sent. -/
theorem pop (ok : Ok q h) (hl : h.last ≠ none) : Ok q.tail h.forget := by
  obtain ⟨v, hv⟩ := Option.ne_none_iff_exists'.mp hl
  obtain ⟨e, he, -, t, ht, hno⟩ := ok.lastHead v hv
  obtain ⟨q, rfl⟩ : ∃ q', q = e :: q' := ⟨_, (eq_cons_of_mem_head? he)⟩
  refine { ok.forget with
    content := fun e he => ok.content e (mem_cons_of_mem _ he)
    increasing := (pairwise_cons.mp ok.increasing).2
    placeLt := fun e he => ok.placeLt e (mem_cons_of_mem _ he)
    behind := fun t ht e he => ok.behind t ht e (mem_cons_of_mem _ he)
    kept := fun n hn => ?_
    lastHead := fun v hv => by cases hv }
  obtain ⟨f, hf, rfl⟩ | hrest := ok.kept n hn
  · obtain rfl | hf := mem_cons.mp hf
    · exact .inr (.inl ⟨t, ht, hno⟩)
    · exact .inl ⟨f, hf, rfl⟩
  · exact .inr hrest

/-- The head is dropped. -/
theorem drop {e : α × Tag} (ok : Ok (e :: q) h) : Ok q (h.drop e.2.no) := by
  refine { ok with
    content := fun e he => ok.content e (mem_cons_of_mem _ he)
    increasing := (pairwise_cons.mp ok.increasing).2
    placeLt := fun e he => ok.placeLt e (mem_cons_of_mem _ he)
    behind := fun t ht e he => ok.behind t ht e (mem_cons_of_mem _ he)
    kept := fun n hn => ?_
    lastHead := fun v hv => by cases hv }
  obtain ⟨f, hf, rfl⟩ | ht | hr | hd := ok.kept n hn
  · obtain rfl | hf := mem_cons.mp hf
    · exact .inr (.inr (.inr (mem_append_right _ (mem_singleton.mpr rfl))))
    · exact .inl ⟨f, hf, rfl⟩
  · exact .inr (.inl ht)
  · exact .inr (.inr (.inl hr))
  · exact .inr (.inr (.inr (mem_append_left _ hd)))

/-- A newer value takes the place of an entry, of the head only before it was sent. -/
theorem replace (ok : Ok q h) {i : ℕ} (hi : i < q.length) (v : α)
    (hhead : i = 0 → h.last = none) :
    Ok (q.set i (v, ⟨h.next, q[i].2.place⟩)) (h.replace q[i].2.no v) where
  content e he := by
    obtain he | rfl := mem_or_eq_of_mem_set he
    · exact getElem?_accepted (ok.content e he) v
    · exact getElem?_concat_length
  sentContent t ht := getElem?_accepted (ok.sentContent t ht) v
  increasing := by
    have hmap : (q.set i (v, ⟨h.next, q[i].2.place⟩)).map (·.2.place) = q.map (·.2.place) := by
      have hlt : i < (q.map (·.2.place)).length := by rwa [length_map]
      have hplace : (q.map (·.2.place))[i] = q[i].2.place := getElem_map _
      rw [map_set]
      dsimp only
      rw [← hplace, set_getElem_self]
    exact pairwise_map.mp (hmap ▸ pairwise_map.mpr ok.increasing)
  placeLt e he := by
    obtain he | rfl := mem_or_eq_of_mem_set he
    · exact lt_next_push v (ok.placeLt e he)
    · exact lt_next_push v (ok.placeLt q[i] (getElem_mem hi))
  sorted := ok.sorted
  sentLt t ht := lt_next_push v (ok.sentLt t ht)
  behind t ht e he := by
    obtain he | rfl := mem_or_eq_of_mem_set he
    · exact ok.behind t ht e he
    · exact ok.behind t ht q[i] (getElem_mem hi)
  kept n hn := by
    obtain hn | rfl : n < h.next ∨ n = h.next := by
      simp only [Hist.replace, Hist.next, length_append, length_singleton] at hn ⊢
      omega
    · obtain ⟨e, he, rfl⟩ | ht | hr | hd := ok.kept n hn
      · obtain ⟨j, hj, rfl⟩ := getElem_of_mem he
        by_cases hij : i = j
        · obtain rfl := hij
          exact .inr (.inr (.inl (mem_append_right _ (mem_singleton.mpr rfl))))
        · refine .inl ⟨q[j], ?_, rfl⟩
          exact mem_iff_getElem.mpr ⟨j, by rwa [length_set], getElem_set_ne hij _⟩
      · exact .inr (.inl ht)
      · exact .inr (.inr (.inl (mem_append_left _ hr)))
      · exact .inr (.inr (.inr hd))
    · exact .inl ⟨_, mem_set hi _, rfl⟩
  lastHead w hw := by
    obtain ⟨e, he, hrest⟩ := ok.lastHead w hw
    refine ⟨e, ?_, hrest⟩
    cases i with
    | zero =>
      have hnone : h.last = none := hhead rfl
      cases hnone ▸ hw
    | succ i =>
      cases q with
      | nil => exact he
      | cons f q => exact he
  same := ok.same

/-- The head is sent. -/
theorem send {e : α × Tag} (ok : Ok (e :: q) h) : Ok (e :: q) (h.send e.2 e.1) where
  content := ok.content
  sentContent t ht := by
    obtain ht | ht := mem_append.mp ht
    · exact ok.sentContent t ht
    · obtain rfl := mem_singleton.mp ht
      exact ok.content e mem_cons_self
  increasing := ok.increasing
  placeLt := ok.placeLt
  sorted := by
    refine pairwise_append.mpr ⟨ok.sorted, pairwise_singleton _ _, fun t ht u hu => ?_⟩
    obtain rfl := mem_singleton.mp hu
    exact ok.behind t ht e mem_cons_self
  sentLt t ht := by
    obtain ht | ht := mem_append.mp ht
    · exact ok.sentLt t ht
    · obtain rfl := mem_singleton.mp ht
      exact ok.placeLt e mem_cons_self
  behind t ht f hf := by
    obtain ht | ht := mem_append.mp ht
    · exact ok.behind t ht f hf
    · obtain rfl := mem_singleton.mp ht
      obtain rfl | hf := mem_cons.mp hf
      · exact le_rfl
      · exact ((pairwise_cons.mp ok.increasing).1 f hf).le
  kept n hn := by
    obtain he | ⟨t, ht, rfl⟩ | hrest := ok.kept n hn
    · exact .inl he
    · exact .inr (.inl ⟨t, mem_append_left _ ht, rfl⟩)
    · exact .inr (.inr hrest)
  lastHead w hw := by
    obtain rfl := Option.some.inj hw
    exact ⟨e, rfl, rfl, _, mem_append_right _ (mem_singleton.mpr rfl), rfl⟩
  same t ht w hw := by
    obtain ht | ht := mem_append.mp ht
    · exact ok.same t ht w hw
    · obtain rfl := mem_singleton.mp ht
      obtain ⟨f, hf, hfw, -⟩ := ok.lastHead w hw
      obtain rfl := Option.some.inj hf
      exact hfw

end Ok

end NumberedQueue
