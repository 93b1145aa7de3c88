import Mathlib.Data.List.Sort

/-! Emptying a pool by taking a least element again and again. -/

namespace Selection

variable {α β : Type*} {le : α → α → Prop} {pool order other : List α}

/-- A pool is emptied in this order when every element taken is least among those left. -/
inductive Selects (le : α → α → Prop) : List α → List α → Prop
  | done : Selects le [] []
  | take {pool rest order : List α} {item : α} (removed : pool.Perm (item :: rest))
    (least : ∀ other ∈ pool, le item other) (later : Selects le rest order)
    : Selects le pool (item :: order)

/-- The orders in which a pool is emptied are its sorted arrangements, by induction on the
order.
-/
theorem selects_iff (reflexive : ∀ a, le a a)
    : Selects le pool order ↔ order.Perm pool ∧ order.Pairwise le := by
  constructor
  · intro selects
    induction selects with
    | done => exact ⟨.nil, .nil⟩
    | take removed least _ ih =>
        obtain ⟨same, sorted⟩ := ih
        refine ⟨(same.cons _).trans removed.symm, .cons ?_ sorted⟩
        intro other member
        exact least other (removed.mem_iff.mpr (.tail _ (same.mem_iff.mp member)))
  · intro arrangement
    obtain ⟨same, sorted⟩ := arrangement
    induction order generalizing pool with
    | nil =>
        obtain rfl := same.symm.eq_nil
        exact .done
    | cons item order ih =>
        obtain ⟨least, sorted⟩ := List.pairwise_cons.mp sorted
        refine .take same.symm ?_ (ih (.refl _) sorted)
        intro other member
        rcases List.mem_cons.mp (same.mem_iff.mpr member) with rfl | later
        · exact reflexive _
        · exact least other later

/-- A pool without ties has one sorted arrangement. -/
theorem arrangement_unique
    (noTies : ∀ a ∈ pool, ∀ b ∈ pool, le a b → le b a → a = b)
    (first : order.Perm pool ∧ order.Pairwise le) (second : other.Perm pool ∧ other.Pairwise le)
    : order = other := by
  refine List.Perm.eq_of_pairwise ?_ first.2 second.2 (first.1.trans second.1.symm)
  intro a b inFirst inSecond
  exact noTies a (first.1.mem_iff.mp inFirst) b (second.1.mem_iff.mp inSecond)

/-- An arrangement by a key splits at every bound on the key. -/
theorem split_at_key {key : α → Nat} (sorted : order.Pairwise (fun a b => key a ≤ key b))
    (bound : Nat)
    : ∃ front back,
        order = front ++ back ∧ (∀ a ∈ front, key a ≤ bound) ∧ ∀ a ∈ back, bound < key a := by
  induction order with
  | nil => exact ⟨[], [], rfl, by simp, by simp⟩
  | cons item order ih =>
      obtain ⟨least, sorted⟩ := List.pairwise_cons.mp sorted
      by_cases within : key item ≤ bound
      · obtain ⟨front, back, rfl, low, high⟩ := ih sorted
        refine ⟨item :: front, back, rfl, ?_, high⟩
        intro a member
        rcases List.mem_cons.mp member with rfl | later
        · exact within
        · exact low a later
      · refine ⟨[], item :: order, rfl, by simp, ?_⟩
        intro a member
        rcases List.mem_cons.mp member with rfl | later
        · omega
        · have higher := least a later
          omega

-----------------------------------------------------------------------------------------
-- Ranks
-----------------------------------------------------------------------------------------

/-- How many elements have a key not above the given one. -/
def rank (key : α → Nat) (pool : List α) (bound : Nat) : Nat :=
  pool.countP (fun a => key a ≤ bound)

theorem rank_perm {key : α → Nat} (same : order.Perm pool) (bound : Nat)
    : rank key order bound = rank key pool bound :=
  same.countP_eq _

/-- A larger key that occurs in the pool has a larger rank. -/
theorem rank_lt_rank {key : α → Nat} {a : α} {bound : Nat} (member : a ∈ pool)
    (less : bound < key a)
    : rank key pool bound < rank key pool (key a) := by
  unfold rank
  induction pool with
  | nil => cases member
  | cons item pool ih =>
      have rest : pool.countP (fun b => key b ≤ bound) ≤ pool.countP (fun b => key b ≤ key a) := by
        apply List.countP_mono_left
        intro b _ below
        simp only [decide_eq_true_eq] at below ⊢
        omega
      rw [List.countP_cons, List.countP_cons]
      rcases List.mem_cons.mp member with rfl | later
      · simp only [decide_eq_true_eq]
        rw [if_neg (by omega), if_pos le_rfl]
        omega
      · have inner := ih later
        by_cases below : key item ≤ bound
        · simp only [decide_eq_true_eq]
          rw [if_pos below, if_pos (by omega)]
          omega
        · simp only [decide_eq_true_eq]
          rw [if_neg below]
          omega

/-- In a list of increasing keys an element's rank is one more than its place. -/
theorem rank_getElem {key : α → Nat} (increasing : pool.Pairwise (fun a b => key a < key b))
    (index : Nat) (within : index < pool.length)
    : rank key pool (key pool[index]) = index + 1 := by
  unfold rank
  induction pool generalizing index with
  | nil => simp at within
  | cons item pool ih =>
      obtain ⟨least, increasing⟩ := List.pairwise_cons.mp increasing
      rw [List.countP_cons]
      cases index with
      | zero =>
          have none : pool.countP (fun a => key a ≤ key item) = 0 := by
            refine List.countP_eq_zero.mpr ?_
            intro a member
            have larger := least a member
            simp only [decide_eq_true_eq]
            omega
          simp [none]
      | succ index =>
          have smaller : index < pool.length := by simpa using within
          have place := ih increasing index smaller
          have below := least pool[index] (List.getElem_mem smaller)
          rw [List.getElem_cons_succ, place]
          simp only [decide_eq_true_eq]
          rw [if_pos (by omega)]

end Selection
