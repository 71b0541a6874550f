import MenuScript.Proofs.ActionAccounting

/-!
# The count of a budget over its history

A budget is charged for actions, asked about the time, and has its time restarted, in any order and
any number of times. Only charges move its count, by one each, up to the last count, where it stays.
Under a limit below the last count, the first charges are granted, as many as the limit says, and no
later one is. A count never gets past the last count, so a limit of that size refuses nothing.
-/

namespace MenuScript

/-- What is done with a budget, and when, where the time matters. -/
inductive BudgetUse where
  | charge
  | checkTime (now : Nat)
  | askLate (now : Nat)
  | restart (now : Nat)

/-- What a budget answers when it is used. -/
inductive BudgetReply where
  | charged (outcome : Except ScriptError Unit)
  | checked (outcome : Except ScriptError Unit)
  | late (isLate : Bool)
  | restarted

/-- The answer to a charge. -/
def BudgetReply.charged? : BudgetReply → Option (Except ScriptError Unit)
  | .charged outcome => some outcome
  | _ => none

namespace BudgetUse

def isCharge : BudgetUse → Bool
  | .charge => true
  | _ => false

/-- Uses a budget once. -/
def perform (b : Budget) : BudgetUse → BudgetReply × Budget
  | .charge => (.charged b.charge.1, b.charge.2)
  | .checkTime now => (.checked (b.checkTime now), b)
  | .askLate now => (.late (b.isLate now), b)
  | .restart now => (.restarted, b.restarted now)

end BudgetUse

/-- Number of charges in a history. -/
def charges (uses : List BudgetUse) : Nat := uses.countP BudgetUse.isCharge

namespace Budget

/-- The budget after a history. -/
def after (start : Budget) (uses : List BudgetUse) : Budget :=
  uses.foldl (fun b u => (u.perform b).2) start

/-- The answers to the uses of a history, in order. -/
def replies (b : Budget) : List BudgetUse → List BudgetReply
  | [] => []
  | u :: later => (u.perform b).1 :: (u.perform b).2.replies later

/-- The answers to the charges of a history, in order. -/
def chargeOutcomes (b : Budget) (uses : List BudgetUse) : List (Except ScriptError Unit) :=
  (b.replies uses).filterMap BudgetReply.charged?

/-- The answers to `n` charges of which exactly the first `room` are granted, and the others refused
because of the limit. -/
def grantingFirst (limit : UInt32) (room n : Nat) : List (Except ScriptError Unit) :=
  List.replicate (min n room) (.ok ()) ++ List.replicate (n - room) (.error (.budgetExceeded limit))

section Outcomes

variable {b : Budget}

private theorem charge_of_room (room : b.used < b.limit) : b.charge.1 = .ok () := by
  rw [charge, isOverdrawn_counted_of_room room]
  rfl

private theorem charge_of_spent (positive : 0 < b.limit) (small : b.limit < lastCount)
    (spent : b.limit.toNat ≤ b.used.toNat) : b.charge.1 = .error (.budgetExceeded b.limit) := by
  rw [charge, isOverdrawn_counted_of_spent positive small spent]
  rfl

/-- The last count is not past a limit of the same size. -/
theorem charge_of_last (top : b.limit = lastCount) : b.charge.1 = .ok () := by
  have count := b.toNat_used_counted
  have within : b.counted.isOverdrawn = false := by
    rw [Bool.eq_false_iff, ne_eq, isOverdrawn_iff, counted_limit, top]
    omega
  rw [charge, within]
  rfl

variable {limit : UInt32} {room n : Nat}

private theorem grantingFirst_zero : grantingFirst limit room 0 = [] := by
  simp [grantingFirst]

private theorem grantingFirst_room :
    grantingFirst limit (room + 1) (n + 1) = .ok () :: grantingFirst limit room n := by
  simp only [grantingFirst, Nat.succ_min_succ, Nat.add_sub_add_right, List.replicate_succ,
    List.cons_append]

private theorem grantingFirst_spent :
    grantingFirst limit 0 (n + 1) =
      .error (.budgetExceeded limit) :: grantingFirst limit 0 n := by
  simp only [grantingFirst, Nat.min_zero, Nat.sub_zero, List.replicate_zero, List.nil_append,
    List.replicate_succ]

end Outcomes

end Budget

section Steps

variable {u : BudgetUse} (b : Budget) (uses : List BudgetUse)

theorem BudgetUse.eq_charge_or (u : BudgetUse) : u = .charge ∨ u.isCharge = false := by
  cases u with
  | charge => exact Or.inl rfl
  | checkTime | askLate | restart => exact Or.inr rfl

/-- A use that is no charge leaves count and limit, and is not answered as a charge. -/
theorem BudgetUse.perform_of_not_charge (other : u.isCharge = false) :
    (u.perform b).2.used = b.used ∧ (u.perform b).2.limit = b.limit ∧
      (u.perform b).1.charged? = none := by
  cases u with
  | charge => cases other
  | checkTime | askLate | restart => exact ⟨rfl, rfl, rfl⟩

theorem charges_cons_charge : charges (.charge :: uses) = charges uses + 1 :=
  List.countP_cons_of_pos rfl

theorem charges_replicate (n : Nat) : charges (List.replicate n .charge) = n := by
  rw [charges, List.countP_replicate]
  rfl

theorem charges_cons_of_not_charge (other : u.isCharge = false) :
    charges (u :: uses) = charges uses :=
  List.countP_cons_of_neg (by rw [other]; exact Bool.false_ne_true)

namespace Budget

private theorem after_concat (u : BudgetUse) :
    b.after (uses ++ [u]) = (u.perform (b.after uses)).2 := by
  rw [after, List.foldl_append]
  rfl

theorem chargeOutcomes_cons_charge :
    b.chargeOutcomes (.charge :: uses) = b.charge.1 :: b.counted.chargeOutcomes uses := rfl

theorem chargeOutcomes_cons_of_not_charge (other : u.isCharge = false) :
    b.chargeOutcomes (u :: uses) = (u.perform b).2.chargeOutcomes uses :=
  List.filterMap_cons_none (u.perform_of_not_charge b other).2.2

end Budget

end Steps

namespace Budget

variable {b : Budget}

theorem toNat_used_after (b : Budget) (uses : List BudgetUse) :
    (b.after uses).used.toNat = min (b.used.toNat + charges uses) lastCount.toNat := by
  have last : lastCount.toNat = 4294967295 := rfl
  induction uses generalizing b with
  | nil =>
    have bound := b.used.toNat_lt
    change b.used.toNat = min b.used.toNat _
    omega
  | cons u uses ih =>
    change ((u.perform b).2.after uses).used.toNat = _
    rw [ih]
    obtain rfl | other := u.eq_charge_or
    · change min (b.counted.used.toNat + _) _ = _
      rw [toNat_used_counted, charges_cons_charge]
      omega
    · rw [(u.perform_of_not_charge b other).1, charges_cons_of_not_charge uses other]

theorem after_replicate_charge (b : Budget) (n : Nat) :
    ∃ used, b.after (List.replicate n .charge) = { b with used } ∧
      used.toNat = min (b.used.toNat + n) lastCount.toNat := by
  have frame : ∃ used, b.after (List.replicate n .charge) = { b with used } := by
    induction n generalizing b with
    | zero => exact ⟨b.used, rfl⟩
    | succ n ih => exact ih (b := b.counted)
  obtain ⟨used, same⟩ := frame
  have count := b.toNat_used_after (List.replicate n .charge)
  rw [same, charges_replicate] at count
  exact ⟨used, same, count⟩

/-- While the limit is below the last count, a budget grants charges as long as it has room. -/
theorem chargeOutcomes_eq_grantingFirst (positive : 0 < b.limit) (small : b.limit < lastCount)
    (uses : List BudgetUse) :
    b.chargeOutcomes uses =
      grantingFirst b.limit (b.limit.toNat - b.used.toNat) (charges uses) := by
  induction uses generalizing b with
  | nil => exact grantingFirst_zero.symm
  | cons u uses ih =>
    obtain rfl | other := u.eq_charge_or
    · -- the limit is below the last count, so the count passes it before it stops
      have count := b.toNat_used_counted
      have below := UInt32.lt_iff_toNat_lt.1 small
      rw [chargeOutcomes_cons_charge, charges_cons_charge, ih (b := b.counted) positive small,
        counted_limit]
      by_cases room : b.used < b.limit
      · have fits := UInt32.lt_iff_toNat_lt.1 room
        have next : b.limit.toNat - b.used.toNat = b.limit.toNat - b.counted.used.toNat + 1 := by
          omega
        rw [charge_of_room room, next, grantingFirst_room]
      · have spent : b.limit.toNat ≤ b.used.toNat := UInt32.le_iff_toNat_le.1 (UInt32.not_lt.1 room)
        have full : b.limit.toNat - b.used.toNat = 0 := by omega
        have still : b.limit.toNat - b.counted.used.toNat = 0 := by omega
        rw [charge_of_spent positive small spent, full, still, grantingFirst_spent]
    · obtain ⟨used, limit, -⟩ := u.perform_of_not_charge b other
      rw [chargeOutcomes_cons_of_not_charge b uses other, charges_cons_of_not_charge uses other,
        ih (by rwa [limit]) (by rwa [limit]), used, limit]

theorem chargeOutcomes_of_last (top : b.limit = lastCount) (uses : List BudgetUse) :
    b.chargeOutcomes uses = List.replicate (charges uses) (.ok ()) := by
  induction uses generalizing b with
  | nil => rfl
  | cons u uses ih =>
    obtain rfl | other := u.eq_charge_or
    · rw [chargeOutcomes_cons_charge, charges_cons_charge, charge_of_last top,
        ih (b := b.counted) top, List.replicate_succ]
    · rw [chargeOutcomes_cons_of_not_charge b uses other, charges_cons_of_not_charge uses other,
        ih ((u.perform_of_not_charge b other).2.1.trans top)]

private theorem used_le_after_concat (uses : List BudgetUse) (u : BudgetUse) :
    (b.after uses).used ≤ (b.after (uses ++ [u])).used := by
  have longer : charges uses ≤ charges (uses ++ [u]) := by
    rw [charges, charges, List.countP_append]
    exact Nat.le_add_right _ _
  rw [UInt32.le_iff_toNat_le, toNat_used_after, toNat_used_after]
  omega

end Budget

/-- In every history of a fresh budget with a limit, the first charges are granted, as many as the
limit says, and every later one is refused and names the limit, unless the limit is the last count:
then every charge is granted. The count is the number of charges up to the last count; no use lowers
it, and a use that is no charge leaves it. -/
theorem charges_granted_up_to_limit (b : Budget) (fresh : b.used = 0) (positive : 0 < b.limit)
    (uses : List BudgetUse) :
    (b.limit < Budget.lastCount →
      b.chargeOutcomes uses = Budget.grantingFirst b.limit b.limit.toNat (charges uses)) ∧
    (b.limit = Budget.lastCount →
      b.chargeOutcomes uses = List.replicate (charges uses) (.ok ())) ∧
    (b.after uses).used.toNat = min (charges uses) (UInt32.size - 1) ∧
    ∀ u : BudgetUse, (b.after uses).used ≤ (b.after (uses ++ [u])).used ∧
      (u.isCharge = false → (b.after (uses ++ [u])).used = (b.after uses).used) := by
  have unused : b.used.toNat = 0 := by rw [fresh]; rfl
  refine ⟨fun small => ?_, fun top => Budget.chargeOutcomes_of_last top uses, ?_,
    fun u => ⟨Budget.used_le_after_concat uses u, fun other => ?_⟩⟩
  · rw [Budget.chargeOutcomes_eq_grantingFirst positive small, unused, Nat.sub_zero]
  · rw [b.toNat_used_after, unused, Nat.zero_add]
    rfl
  · rw [Budget.after_concat]
    exact (u.perform_of_not_charge _ other).1

/-- A budget for two actions within five milliseconds. -/
def modestBudget : Budget := { limit := 2, started := 0, timeLimit := some 5 }

def modestUses : List BudgetUse :=
  [.charge, .checkTime 6000000, .charge, .restart 7000000, .charge, .askLate 7000001, .charge]

theorem charges_granted_up_to_limit_modest :
    modestBudget.used = 0 ∧ 0 < modestBudget.limit ∧ modestBudget.limit < Budget.lastCount ∧
      modestBudget.chargeOutcomes modestUses =
        [.ok (), .ok (), .error (.budgetExceeded 2), .error (.budgetExceeded 2)] ∧
      (modestBudget.after modestUses).used.toNat = 4 := by
  obtain ⟨outcomes, -, count, -⟩ :=
    charges_granted_up_to_limit modestBudget rfl (by decide) modestUses
  exact ⟨rfl, by decide, by decide, outcomes (by decide), count⟩

/-- The budget with the largest limit there is. -/
def largestBudget : Budget := { limit := Budget.lastCount, started := 0, timeLimit := none }

/-- One charge more than the largest limit. -/
def chargesPastLargest : List BudgetUse := List.replicate UInt32.size .charge

private theorem charges_chargesPastLargest :
    charges chargesPastLargest = largestBudget.limit.toNat + 1 := by
  rw [chargesPastLargest, charges_replicate]
  rfl

/-- Under the largest limit the charge that goes past it is granted like the others, because the
count has stopped at the limit. -/
theorem largest_limit_refuses_nothing :
    charges chargesPastLargest = largestBudget.limit.toNat + 1 ∧
      largestBudget.chargeOutcomes chargesPastLargest =
        List.replicate (largestBudget.limit.toNat + 1) (.ok ()) ∧
      largestBudget.chargeOutcomes chargesPastLargest ≠
        Budget.grantingFirst largestBudget.limit largestBudget.limit.toNat
          (charges chargesPastLargest) := by
  have granted := Budget.chargeOutcomes_of_last (b := largestBudget) rfl chargesPastLargest
  rw [charges_chargesPastLargest] at granted ⊢
  refine ⟨rfl, granted, fun same => ?_⟩
  have refused : .error (.budgetExceeded largestBudget.limit) ∈
      Budget.grantingFirst largestBudget.limit largestBudget.limit.toNat
        (largestBudget.limit.toNat + 1) := by
    rw [Budget.grantingFirst, Nat.add_sub_cancel_left]
    exact List.mem_append_right _ (List.mem_replicate.2 ⟨Nat.one_ne_zero, rfl⟩)
  rw [← same, granted] at refused
  cases List.eq_of_mem_replicate refused

end MenuScript
