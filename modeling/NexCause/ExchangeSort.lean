/-
NexCause/ExchangeSort.lean

Sorting by exchanges, in place: each place against all places behind it, and
the two items change places if the one behind has the greater key.

A pass over a place brings an item of the greatest key there (`pass_append`,
`le_front`); what stands before the place stays as it is.

Main results: the sorted list is a permutation of the list, with the keys in
descending order (`sort_perm`, `sort_pairwise`).
-/
import Mathlib.Data.List.Basic
import Mathlib.Order.Lattice

namespace ExchangeSort

variable {α β : Type*} [LinearOrder β] (key : α → β)

/-! ### The loops -/

/-- Two items change places if the one behind has the greater key. -/
def exchange (i : ℕ) (xs : List α) (j : ℕ) : List α :=
  match xs[i]?, xs[j]? with
  | some a, some b => if key a < key b then (xs.set i b).set j a else xs
  | _, _ => xs

/-- The inner loop. -/
def pass (xs : List α) (i : ℕ) : List α :=
  (List.range' (i + 1) (xs.length - (i + 1))).foldl (exchange key i) xs

/-- The outer loop. -/
def sort (xs : List α) : List α := (List.range xs.length).foldl (pass key) xs

/-! ### A pass -/

/-- What a pass makes of the item of its place and of what stands behind it. -/
def front (a : α) : List α → α × List α
  | [] => (a, [])
  | b :: bs =>
      if key a < key b then ((front b bs).1, a :: (front b bs).2)
      else ((front a bs).1, b :: (front a bs).2)

variable {key}

variable (key) in
theorem front_perm (a : α) (bs : List α) :
    ((front key a bs).1 :: (front key a bs).2).Perm (a :: bs) := by
  induction bs generalizing a with
  | nil => exact List.Perm.refl _
  | cons b bs ih =>
    unfold front
    split
    · exact (List.Perm.swap _ _ _).trans ((ih b).cons a)
    · exact (List.Perm.swap _ _ _).trans (((ih a).cons b).trans (List.Perm.swap _ _ _))

/-- The key at the place only grows. -/
theorem key_le_front (a : α) (bs : List α) : key a ≤ key (front key a bs).1 := by
  induction bs generalizing a with
  | nil => exact le_rfl
  | cons b bs ih =>
    unfold front
    split
    · rename_i hlt
      exact hlt.le.trans (ih b)
    · exact ih a

/-- In the end it is the greatest. -/
theorem le_front (a : α) (bs : List α) :
    ∀ c ∈ (front key a bs).2, key c ≤ key (front key a bs).1 := by
  induction bs generalizing a with
  | nil => exact nofun
  | cons b bs ih =>
    unfold front
    split
    · rename_i hlt
      exact List.forall_mem_cons.mpr ⟨hlt.le.trans (key_le_front b bs), ih b⟩
    · rename_i hle
      exact List.forall_mem_cons.mpr ⟨(not_lt.mp hle).trans (key_le_front a bs), ih a⟩

/-- One exchange, where the place and the other item are in view. -/
theorem exchange_append (done seen : List α) (a b : α) (bs : List α) :
    exchange key done.length (done ++ a :: (seen ++ b :: bs)) (done.length + 1 + seen.length) =
      if key a < key b then done ++ b :: (seen ++ a :: bs) else done ++ a :: (seen ++ b :: bs) := by
  have hfirst : (done ++ a :: (seen ++ b :: bs))[done.length]? = some a := by simp
  have hplace : done.length + 1 + seen.length = (done ++ a :: seen).length := by
    simp
    omega
  have hassoc : ∀ c d, done ++ c :: (seen ++ d :: bs) = (done ++ c :: seen) ++ d :: bs := by simp
  have hsecond : (done ++ a :: (seen ++ b :: bs))[done.length + 1 + seen.length]? = some b := by
    rw [hassoc, hplace]
    simp
  unfold exchange
  rw [hfirst, hsecond]
  dsimp only
  split
  · -- first the place gets the other item, then the other place the first one
    have hset : (done ++ a :: (seen ++ b :: bs)).set done.length b =
        done ++ b :: (seen ++ b :: bs) := by simp
    have hplace' : done.length + 1 + seen.length = (done ++ b :: seen).length := by
      simp
      omega
    rw [hset, hassoc, hplace', List.set_append_right _ _ le_rfl]
    simp
  · rfl

/-- The inner loop, from the place behind the items that it has seen. -/
theorem foldl_exchange (done seen : List α) (a : α) (bs : List α) :
    (List.range' (done.length + 1 + seen.length) bs.length).foldl (exchange key done.length)
      (done ++ a :: (seen ++ bs)) =
      done ++ (front key a bs).1 :: (seen ++ (front key a bs).2) := by
  induction bs generalizing a seen with
  | nil => rfl
  | cons b bs ih =>
    have hnext : ∀ c : α, done.length + 1 + seen.length + 1 =
        done.length + 1 + (seen ++ [c]).length := by
      intro c
      simp
      omega
    have hmove : ∀ c (cs : List α), seen ++ c :: cs = (seen ++ [c]) ++ cs := by simp
    rw [List.length_cons, List.range'_succ, List.foldl_cons, exchange_append]
    unfold front
    split
    · rw [hmove a bs, hnext a, ih, ← hmove]
    · rw [hmove b bs, hnext b, ih, ← hmove]

/-- **A pass** brings an item of the greatest key to its place. -/
theorem pass_append (done : List α) (a : α) (bs : List α) :
    pass key (done ++ a :: bs) done.length =
      done ++ (front key a bs).1 :: (front key a bs).2 := by
  have hlength : (done ++ a :: bs).length - (done.length + 1) = bs.length := by
    simp
    omega
  unfold pass
  rw [hlength]
  exact foldl_exchange done [] a bs

/-! ### The sort -/

variable (key) in
/-- The outer loop, from a place on: what stands before it stays, and the rest is
sorted. -/
theorem foldl_pass (done rest : List α) :
    ∃ out, (List.range' done.length rest.length).foldl (pass key) (done ++ rest) = done ++ out ∧
      out.Perm rest ∧ out.Pairwise fun a b => key b ≤ key a := by
  generalize hn : rest.length = n
  induction n generalizing done rest with
  | zero =>
    obtain rfl := List.length_eq_zero_iff.mp hn
    exact ⟨[], rfl, List.Perm.refl _, List.Pairwise.nil⟩
  | succ n ih =>
    obtain ⟨a, bs, rfl⟩ := List.exists_cons_of_length_eq_add_one hn
    have hfront := front_perm key a bs
    have hlength : (front key a bs).2.length = n := by
      have hsame := hfront.length_eq
      simp only [List.length_cons] at hsame hn
      omega
    -- the item of the greatest key is done; the loop goes on with the others
    obtain ⟨out, hout, hperm, hsorted⟩ :=
      ih (done ++ [(front key a bs).1]) (front key a bs).2 hlength
    refine ⟨(front key a bs).1 :: out, ?_, (hperm.cons _).trans hfront, ?_⟩
    · rw [List.range'_succ, List.foldl_cons, pass_append]
      simpa using hout
    · refine List.pairwise_cons.mpr ⟨?_, hsorted⟩
      intro c hc
      exact le_front a bs c (hperm.mem_iff.mp hc)

theorem sort_spec (xs : List α) :
    (sort key xs).Perm xs ∧ (sort key xs).Pairwise fun a b => key b ≤ key a := by
  obtain ⟨out, hout, hperm, hsorted⟩ := foldl_pass key [] xs
  have hsort : sort key xs = out := by
    unfold sort
    rw [List.range_eq_range']
    exact hout
  rw [hsort]
  exact ⟨hperm, hsorted⟩

theorem sort_perm (xs : List α) : (sort key xs).Perm xs := (sort_spec xs).1

theorem sort_pairwise (xs : List α) : (sort key xs).Pairwise fun a b => key b ≤ key a :=
  (sort_spec xs).2

end ExchangeSort
