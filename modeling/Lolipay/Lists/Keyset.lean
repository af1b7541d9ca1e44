import Lolipay.Lists.Turns
import Mathlib.Order.Defs.LinearOrder
import Mathlib.Data.List.Sort

namespace Lolipay.Lists.Keyset

open Lolipay.Lists.Turns

variable {κ : Type*} [LinearOrder κ]

/-- A walk without a cursor begins at the start. -/
def isAfter (cursor : Option κ) (k : κ) : Bool := cursor.all fun c => c < k

/-- The next keys of the walk, over a pool in order. -/
def batch (size : ℕ) (pool : List κ) (cursor : Option κ) : List κ :=
  (pool.filter (isAfter cursor)).take size

/-- The walk goes on from the last key of a full batch; after a short one it
begins again. -/
def nextCursor (size : ℕ) (found : List κ) : Option κ :=
  if found.length = size then found.getLast? else none

def cursorAt (size : ℕ) (pool : ℕ → List κ) (start : Option κ) : ℕ → Option κ
  | 0 => start
  | n + 1 => nextCursor size (batch size (pool n) (cursorAt size pool start n))

def batches (size n : ℕ) : ℕ := (n + (size - 1)) / size

variable {size : ℕ} {pool pool' : List κ} {cursor : Option κ} {x : κ}

theorem batches_mono (size : ℕ) {m n : ℕ} (h : m ≤ n) : batches size m ≤ batches size n :=
  Nat.div_le_div_right (Nat.add_le_add_right h _)

theorem batches_pos {n : ℕ} (hsize : 0 < size) (h : 0 < n) : 0 < batches size n :=
  Nat.div_pos (by omega) hsize

theorem batches_add_size {n : ℕ} (hsize : 0 < size) :
    batches size (n + size) = batches size n + 1 := by
  rw [batches, batches, Nat.add_right_comm, Nat.add_div_right _ hsize]

theorem div_add_batches_le (size m n : ℕ) : m / size + batches size n ≤ batches size (m + n) := by
  rw [batches, batches, Nat.add_assoc]
  exact Nat.div_add_div_le_add_div

/-- In a list in order, what is greater than the last of the first elements is the
rest. -/
theorem filter_after_last {l : List κ} {last : κ} (hsorted : l.Pairwise (· < ·))
    (hlast : (l.take size).getLast? = some last) :
    l.filter (isAfter (some last)) = l.drop size := by
  obtain ⟨front, hfront⟩ := List.getLast?_eq_some_iff.mp hlast
  have hsplit := List.take_append_drop size l
  have hparts := hsorted
  rw [← hsplit, List.pairwise_append, hfront, List.pairwise_append] at hparts
  obtain ⟨⟨-, -, hbefore⟩, -, hacross⟩ := hparts
  have htake : (l.take size).filter (isAfter (some last)) = [] := by
    rw [List.filter_eq_nil_iff, hfront]
    intro k hk
    obtain hk | hk := List.mem_append.mp hk
    · simpa [isAfter] using (hbefore k hk last (List.mem_singleton_self last)).le
    · obtain rfl := List.mem_singleton.mp hk
      simp [isAfter]
  have hdrop : (l.drop size).filter (isAfter (some last)) = l.drop size := by
    rw [List.filter_eq_self]
    intro k hk
    have hlt := hacross last (List.mem_append_right _ (List.mem_singleton_self last)) k hk
    simpa [isAfter] using hlt
  conv_lhs => rw [← hsplit, List.filter_append, htake, hdrop, List.nil_append]

theorem filter_isAfter {last : κ} (h : isAfter cursor last = true) :
    (pool.filter (isAfter cursor)).filter (isAfter (some last)) =
      pool.filter (isAfter (some last)) := by
  rw [List.filter_filter]
  apply List.filter_congr
  intro k _
  cases cursor with
  | none => simp [isAfter]
  | some c =>
    simp only [isAfter, Option.all_some, decide_eq_true_eq] at h ⊢
    by_cases hk : last < k
    · simp [hk, h.trans hk]
    · simp [hk]

/-- What is after the last key of a full batch is what the batch left. -/
theorem filter_nextCursor (hsorted : pool.Pairwise (· < ·)) (hsize : 0 < size)
    (hfull : (batch size pool cursor).length = size) :
    pool.filter (isAfter (nextCursor size (batch size pool cursor))) =
      (pool.filter (isAfter cursor)).drop size := by
  obtain ⟨last, hlast⟩ : ∃ last, (batch size pool cursor).getLast? = some last := by
    cases hbatch : (batch size pool cursor).getLast? with
    | none =>
      rw [List.getLast?_eq_none_iff] at hbatch
      rw [hbatch] at hfull
      exact absurd hfull hsize.ne
    | some last => exact ⟨last, rfl⟩
  have hmem : last ∈ pool.filter (isAfter cursor) :=
    List.mem_of_mem_take (List.mem_of_getLast? hlast)
  rw [nextCursor, if_pos hfull, hlast, ← filter_isAfter (List.mem_filter.mp hmem).2]
  exact filter_after_last (hsorted.filter _) hlast

/-- How many batches the walk is from a key at most: those up to the key, or those
to the end of the pool, its short one, and those up to the key from the start. -/
def rank (size : ℕ) (pool : List κ) (cursor : Option κ) (x : κ) : ℕ :=
  if isAfter cursor x = true then batches size ((pool.filter (isAfter cursor)).countP (· ≤ x))
  else (pool.filter (isAfter cursor)).length / size + 1 + batches size (pool.countP (· ≤ x))

theorem rank_pos (hsize : 0 < size) (hx : x ∈ pool) : 0 < rank size pool cursor x := by
  unfold rank
  split_ifs with hafter
  · apply batches_pos hsize
    rw [List.countP_pos_iff]
    exact ⟨x, List.mem_filter.mpr ⟨hx, hafter⟩, by simp⟩
  · exact Nat.add_pos_left (Nat.succ_pos _) _

theorem rank_le (size : ℕ) (pool : List κ) (cursor : Option κ) (x : κ) :
    rank size pool cursor x ≤ batches size pool.length + 1 := by
  unfold rank
  split_ifs with hafter
  · have hcount : (pool.filter (isAfter cursor)).countP (· ≤ x) ≤ pool.length :=
      List.countP_le_length.trans (List.length_filter_le _ _)
    have hbatches := batches_mono size hcount
    omega
  · have hdisjoint : (pool.filter (isAfter cursor)).length + pool.countP (· ≤ x) ≤
        pool.length := by
      have hle : pool.countP (· ≤ x) ≤ pool.countP fun k => !isAfter cursor k := by
        apply List.countP_mono_left
        intro k _ hk
        cases cursor with
        | none => simp [isAfter] at hafter
        | some c =>
          simp only [isAfter, Option.all_some, decide_eq_true_eq, not_lt] at hk hafter ⊢
          simpa using hk.trans hafter
      have hsum := List.length_eq_countP_add_countP (isAfter cursor) (l := pool)
      rw [← List.countP_eq_length_filter]
      simp only [Bool.not_eq_true, Bool.decide_eq_false] at hsum
      omega
    have hbatches := div_add_batches_le size (pool.filter (isAfter cursor)).length
      (pool.countP (· ≤ x))
    have hmono := batches_mono size hdisjoint
    omega

theorem countP_batch (hsorted : pool.Pairwise (· < ·)) (hfull : (batch size pool cursor).length = size)
    (hx : x ∈ (pool.filter (isAfter cursor)).drop size) :
    (pool.filter (isAfter cursor)).countP (· ≤ x) =
      ((pool.filter (isAfter cursor)).drop size).countP (· ≤ x) + size := by
  have hsplit := List.take_append_drop size (pool.filter (isAfter cursor))
  have htake : (batch size pool cursor).countP (· ≤ x) = size := by
    refine (List.countP_eq_length.mpr ?_).trans hfull
    intro k hk
    have hleft := hsorted.filter (isAfter cursor)
    rw [← hsplit, List.pairwise_append] at hleft
    simpa using (hleft.2.2 k hk x hx).le
  conv_lhs => rw [← hsplit, List.countP_append]
  change (batch size pool cursor).countP (· ≤ x) + _ = _
  rw [htake, Nat.add_comm]

section Ranks

variable (hsorted : pool.Pairwise (· < ·)) (hsub : pool'.Sublist pool) (hsize : 0 < size)

include hsorted hsub hsize

theorem rank_lt_ahead (hx : x ∈ pool) (hmissed : x ∉ batch size pool cursor)
    (hfull : (batch size pool cursor).length = size) (hafter : isAfter cursor x = true) :
    rank size pool' (nextCursor size (batch size pool cursor)) x < rank size pool cursor x := by
  have hrest := filter_nextCursor hsorted hsize hfull
  have hsub' := hsub.filter (isAfter (nextCursor size (batch size pool cursor)))
  rw [hrest] at hsub'
  have hmem : x ∈ (pool.filter (isAfter cursor)).drop size := by
    have hleft : x ∈ pool.filter (isAfter cursor) := List.mem_filter.mpr ⟨hx, hafter⟩
    rw [← List.take_append_drop size (pool.filter (isAfter cursor)), List.mem_append] at hleft
    exact hleft.resolve_left hmissed
  have hafter' : isAfter (nextCursor size (batch size pool cursor)) x = true := by
    rw [← hrest] at hmem
    exact (List.mem_filter.mp hmem).2
  rw [rank, rank, if_pos hafter, if_pos hafter', countP_batch hsorted hfull hmem, batches_add_size hsize]
  exact Nat.lt_succ_of_le (batches_mono size hsub'.countP_le)

theorem rank_lt_past (hx : x ∈ pool) (hfull : (batch size pool cursor).length = size)
    (hafter : ¬ isAfter cursor x = true) :
    rank size pool' (nextCursor size (batch size pool cursor)) x < rank size pool cursor x := by
  have hrest := filter_nextCursor hsorted hsize hfull
  have hsub' := hsub.filter (isAfter (nextCursor size (batch size pool cursor)))
  rw [hrest] at hsub'
  have hafter' : ¬ isAfter (nextCursor size (batch size pool cursor)) x = true := by
    intro h
    have hmem : x ∈ (pool.filter (isAfter cursor)).drop size := by
      rw [← hrest]
      exact List.mem_filter.mpr ⟨hx, h⟩
    exact hafter (List.mem_filter.mp (List.mem_of_mem_drop hmem)).2
  have hlength : size ≤ (pool.filter (isAfter cursor)).length := by
    rw [batch, List.length_take] at hfull
    omega
  have hdrop := hsub'.length_le
  rw [List.length_drop] at hdrop
  have hdiv := Nat.div_eq_sub_div hsize hlength
  have hfewer := Nat.div_le_div_right (c := size) hdrop
  have hbatches := batches_mono size (hsub.countP_le : pool'.countP (· ≤ x) ≤ pool.countP (· ≤ x))
  rw [rank, rank, if_neg hafter, if_neg hafter']
  omega

end Ranks

theorem rank_lt_around (hsub : pool'.Sublist pool) (hx : x ∈ pool)
    (hmissed : x ∉ batch size pool cursor) (hfull : (batch size pool cursor).length ≠ size) :
    rank size pool' (nextCursor size (batch size pool cursor)) x < rank size pool cursor x := by
  have hshort : batch size pool cursor = pool.filter (isAfter cursor) := by
    apply List.take_of_length_le
    rw [batch, List.length_take] at hfull
    omega
  have hafter : ¬ isAfter cursor x = true := by
    intro h
    rw [hshort] at hmissed
    exact hmissed (List.mem_filter.mpr ⟨hx, h⟩)
  have hstart : nextCursor size (batch size pool cursor) = none := if_neg hfull
  have hall : pool'.filter (isAfter none) = pool' := by
    rw [List.filter_eq_self]
    intro k _
    rfl
  rw [hstart, rank, rank, if_neg hafter, if_pos (show isAfter none x = true from rfl), hall]
  exact (batches_mono size hsub.countP_le).trans_lt (Nat.lt_add_of_pos_left (Nat.succ_pos _))

/-- A batch that misses a key of the pool brings the walk one batch closer to it,
whatever leaves the pool. -/
theorem rank_lt (hsorted : pool.Pairwise (· < ·)) (hsub : pool'.Sublist pool) (hsize : 0 < size)
    (hx : x ∈ pool) (hmissed : x ∉ batch size pool cursor) :
    rank size pool' (nextCursor size (batch size pool cursor)) x < rank size pool cursor x := by
  by_cases hfull : (batch size pool cursor).length = size
  · by_cases hafter : isAfter cursor x = true
    · exact rank_lt_ahead hsorted hsub hsize hx hmissed hfull hafter
    · exact rank_lt_past hsorted hsub hsize hx hfull hafter
  · exact rank_lt_around hsub hx hmissed hfull

theorem visited_of_forall (pool : ℕ → List κ) (start : Option κ) (hsize : 0 < size)
    (hsorted : ∀ n, (pool n).Pairwise (· < ·)) (hsub : ∀ n, (pool (n + 1)).Sublist (pool n))
    (hx : ∀ n, x ∈ pool n) :
    ∃ n < batches size (pool 0).length + 1,
      x ∈ batch size (pool n) (cursorAt size pool start n) := by
  have hturn := turn_of_rank
    (fun n => x ∈ batch size (pool n) (cursorAt size pool start n))
    (fun n => rank size (pool n) (cursorAt size pool start n) x) ?_ ?_
  · obtain ⟨n, hn, hserved⟩ := hturn
    exact ⟨n, hn.trans_le (rank_le size (pool 0) start x), hserved⟩
  · intro n _
    exact rank_pos hsize (hx n)
  · intro n _ hmissed
    exact rank_lt (hsorted n) (hsub n) hsize (hx n) (hmissed n n.lt_succ_self)

theorem cursorAt_congr {pool pool' : ℕ → List κ} {start : Option κ} {n : ℕ}
    (h : ∀ m < n, pool m = pool' m) :
    cursorAt size pool start n = cursorAt size pool' start n := by
  induction n with
  | zero => rfl
  | succ n ih =>
    rw [cursorAt, cursorAt, h n n.lt_succ_self, ih fun m hm => h m (Nat.lt_succ_of_lt hm)]

/-- A walk over a pool that keys may leave and none enter, from any cursor, comes by
every key that stays that long within one batch more than the pool takes. -/
theorem visited (pool : ℕ → List κ) (start : Option κ) (hsize : 0 < size)
    (hsorted : ∀ n, (pool n).Pairwise (· < ·)) (hsub : ∀ n, (pool (n + 1)).Sublist (pool n))
    (hx : ∀ n < batches size (pool 0).length + 1, x ∈ pool n) :
    ∃ n < batches size (pool 0).length + 1,
      x ∈ batch size (pool n) (cursorAt size pool start n) := by
  -- what leaves the pool after those batches does not matter
  let frozen (n : ℕ) : List κ := pool (min n (batches size (pool 0).length))
  have hfrozen : ∀ n < batches size (pool 0).length + 1, frozen n = pool n := by
    intro n hn
    exact congrArg pool (Nat.min_eq_left (Nat.le_of_lt_succ hn))
  have hfirst : frozen 0 = pool 0 := hfrozen 0 (Nat.succ_pos _)
  have hleaving : ∀ n, (frozen (n + 1)).Sublist (frozen n) := by
    intro n
    by_cases hn : n < batches size (pool 0).length
    · rw [hfrozen n (Nat.lt_succ_of_lt hn), hfrozen (n + 1) (Nat.succ_lt_succ hn)]
      exact hsub n
    · have hstill : frozen (n + 1) = frozen n := by
        apply congrArg pool
        omega
      rw [hstill]
  have hstays : ∀ n, x ∈ frozen n := by
    intro n
    exact hx _ (Nat.lt_succ_of_le (Nat.min_le_right _ _))
  obtain ⟨n, hn, hserved⟩ := visited_of_forall frozen start hsize
    (fun n => hsorted _) hleaving hstays
  replace hn := hfirst ▸ hn
  refine ⟨n, hn, ?_⟩
  have hcursor : cursorAt size frozen start n = cursorAt size pool start n :=
    cursorAt_congr fun m hm => hfrozen m (hm.trans hn)
  rwa [hfrozen n hn, hcursor] at hserved

end Lolipay.Lists.Keyset
