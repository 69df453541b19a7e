/-!
# Totals

* `total` — the sum of a list of sizes. It adds up over parts of the list (`total_append`) and does
  not depend on their order (`total_reverse`).
-/

namespace AssetLift

/-- The sum of a list of sizes. -/
def total (sizes : List Nat) : Nat := sizes.foldl Nat.add 0

theorem foldl_add_eq (start : Nat) (sizes : List Nat) :
    sizes.foldl Nat.add start = start + total sizes := by
  unfold total
  induction sizes generalizing start with
  | nil => rfl
  | cons a rest ih =>
    rw [List.foldl_cons, List.foldl_cons, ih, ih (Nat.add 0 a)]
    simp only [Nat.add_eq, Nat.zero_add, Nat.add_assoc]

@[simp] theorem total_nil : total [] = 0 := rfl

@[simp] theorem total_cons (a : Nat) (rest : List Nat) : total (a :: rest) = a + total rest := by
  rw [total, List.foldl_cons, foldl_add_eq, Nat.add_eq, Nat.zero_add]

@[simp] theorem total_append (as bs : List Nat) : total (as ++ bs) = total as + total bs := by
  rw [total, List.foldl_append, foldl_add_eq]
  rfl

theorem total_reverse (sizes : List Nat) : total sizes.reverse = total sizes := by
  induction sizes with
  | nil => rfl
  | cons a rest ih =>
    rw [List.reverse_cons, total_append, ih, total_cons, total_cons, total_nil, Nat.add_zero,
      Nat.add_comm]

end AssetLift
