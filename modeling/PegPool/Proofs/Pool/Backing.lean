import PegPool.Proofs.Pool.Ledger

/-!
# The backing of a pool token

What a pool token is worth of an asset is the reserve divided by the supply.  Withdrawals in both
assets and deposits in the ratio of the reserves are rounded in favour of the tokens that remain, so
in a run of them (`Along Step.Proportional`) no token ever loses backing (`run_backs`), provided that
the administrator's rates are at most one.  In particular a burn pays no more when it is split.
-/

namespace PegPool

/-- A pool token is backed by at least as much of each asset in the second reserves as in the first
ones. -/
def Reserves.BackedBy (r next : Reserves) : Prop :=
  ∀ asset, (r.get asset).val * next.supply.val ≤ (next.get asset).val * r.supply.val

namespace Reserves

variable {r second third : Reserves}

theorem BackedBy.refl (r : Reserves) : r.BackedBy r :=
  fun _ => le_rfl

theorem BackedBy.trans (one : r.BackedBy second) (two : second.BackedBy third)
    (supplyPos : 0 < second.supply.val) : r.BackedBy third := by
  intro asset
  apply Nat.le_of_mul_le_mul_right _ supplyPos
  calc (r.get asset).val * third.supply.val * second.supply.val
      = (r.get asset).val * second.supply.val * third.supply.val := by ring
    _ ≤ (second.get asset).val * r.supply.val * third.supply.val := Nat.mul_le_mul_right _ (one asset)
    _ = (second.get asset).val * third.supply.val * r.supply.val := by ring
    _ ≤ (third.get asset).val * second.supply.val * r.supply.val := Nat.mul_le_mul_right _ (two asset)
    _ = (third.get asset).val * r.supply.val * second.supply.val := by ring

end Reserves

namespace Exchange

variable {cap : Nat} {fees : Fees} {amp depositA depositB reserveA reserveB supply : Int} {n : Nat}

/-- In the ratio of the reserves a deposit mints its exact share, rounded down. -/
theorem mintForDeposit_of_ratio (ratio : depositA * reserveB = depositB * reserveA)
    (priced : (mintForDeposit cap fees amp depositA depositB reserveA reserveB supply).outcome =
      .ok n) : 0 < reserveA ∧ (n : Int) = (supply * depositA).fdiv reserveA := by
  simp only [mintForDeposit, Traced.outcome_bind, Traced.outcome_ite, Traced.outcome_liftM,
    Traced.outcome_throw, error_bind, bind_eq_ok, Word.ofInt_eq_ok] at priced
  obtain ⟨d0, -, old, isOld, _, -, newA, -, _, -, _, -, newB, -, d1, -, priced⟩ := priced
  split at priced
  · cases priced
  · simp only [bind_eq_ok, Word.ofInt_eq_ok, Word.mul_eq_ok] at priced
    obtain ⟨a, isA, crossA, isCrossA, b, isB, crossB, isCrossB, priced⟩ := priced
    have same : crossA.val = crossB.val := by
      rw [isA, ratio, ← isB, ← isCrossB] at isCrossA
      omega
    rw [if_pos same] at priced
    simp only [bind_eq_ok, Word.read_int, Word.ofInt_eq_ok, Word.mul_eq_ok, Word.div_eq_ok,
      Word.narrow_eq_ok] at priced
    obtain ⟨whole, isWhole, product, isProduct, share, ⟨nonzero, isShare⟩, rfl, -⟩ := priced
    rw [isProduct, isWhole] at isShare
    exact ⟨by omega, isShare⟩

end Exchange

namespace Pool

variable {cap : Nat} {p next : Pool}

/-! ## Quotes -/

theorem withdraw_backs {burned minimumA minimumB : Int} {q : Quote.Withdrawal}
    (admin : p.fees.AdminAtMostOne)
    (quoted : (Quote.withdraw p burned minimumA minimumB).outcome = .ok (some q)) :
    p.reserves.BackedBy q.newReserves := by
  obtain ⟨⟨supplyPos, -⟩, priced, isReserve, isSupply⟩ := Quote.withdraw_spec quoted
  intro asset
  have reserve := isReserve asset
  have adminLe := Exchange.withdrawShare_adminFee_le admin (priced asset)
  obtain ⟨isShare, -⟩ := Exchange.withdrawShare_spec (priced asset)
  obtain ⟨-, -, -, -, isQuotient, -⟩ := mulDiv_eq_ok.mp isShare
  obtain ⟨shareLe, -⟩ := Word.fdiv_bounds (n := (p.reserves.get asset).val * burned)
    (show 0 < (p.reserves.supply.val : Int) by omega)
  rw [← isQuotient] at shareLe
  have left : ((p.reserves.get asset).val : Int) - (q.share asset).amount - (q.share asset).fee ≤
      (q.newReserves.get asset).val := by omega
  have scaled := mul_le_mul_of_nonneg_right left (show 0 ≤ (p.reserves.supply.val : Int) by omega)
  zify
  rw [show (q.newReserves.supply.val : Int) = p.reserves.supply.val - burned by omega]
  push_cast at shareLe
  linarith

theorem deposit_backs {now amountA amountB minimum : Int} {q : Quote.Deposit}
    (ratio : amountA * p.reserves.b.val = amountB * p.reserves.a.val)
    (quoted : (Quote.deposit cap p now amountA amountB minimum).outcome = .ok (some q)) :
    p.reserves.BackedBy q.newReserves := by
  obtain ⟨-, priced, isA, isB, isSupply⟩ := Quote.deposit_spec quoted
  obtain ⟨aPos, isMinted⟩ := Exchange.mintForDeposit_of_ratio ratio priced
  obtain ⟨mintedLe, -⟩ := Word.fdiv_bounds (n := p.reserves.supply.val * amountA) aPos
  rw [← isMinted] at mintedLe
  have mintedLe' : (p.reserves.b.val : Int) * q.minted ≤ p.reserves.supply.val * amountB := by
    -- the ratio carries the bound from the first asset to the second one
    apply le_of_mul_le_mul_right _ aPos
    have := mul_le_mul_of_nonneg_left mintedLe (Int.natCast_nonneg p.reserves.b.val)
    calc (p.reserves.b.val : Int) * q.minted * p.reserves.a.val
        ≤ p.reserves.supply.val * (amountA * p.reserves.b.val) := by linarith
      _ = p.reserves.supply.val * amountB * p.reserves.a.val := by rw [ratio]; ring
  intro asset
  zify
  cases asset with
  | a =>
    simp only [Reserves.get]
    rw [isA, isSupply]
    linarith
  | b =>
    simp only [Reserves.get]
    rw [isB, isSupply]
    linarith

/-! ## Runs -/

/-- Every step of a run has a property at the pool that it meets. -/
def Along (cap : Nat) (P : Pool → Step → Prop) : Pool → List Step → Prop
  | _, [] => True
  | p, s :: rest => P p s ∧ Along cap P (s.after cap p) rest

/-- A withdrawal in both assets, or a deposit of both in the ratio of the reserves. -/
def Step.Proportional (p : Pool) : Step → Prop
  | withdraw .. => True
  | deposit _ amountA amountB _ => amountA * p.reserves.b.val = amountB * p.reserves.a.val
  | _ => False

def Step.IsWithdrawal (s : Step) : Prop :=
  ∃ burned minimumA minimumB, s = .withdraw burned minimumA minimumB

/-- A step that succeeds changes no fees, and it changes the reserves only of a pool with pool tokens
and keeps their backing. -/
theorem Step.run_backs {s : Step} {a : Answer} (admin : p.fees.AdminAtMostOne)
    (proportional : s.Proportional p) (ran : (s.run cap p).outcome = .ok (next, a)) :
    next.fees = p.fees ∧ (next.reserves = p.reserves ∨
      0 < p.reserves.supply.val ∧ p.reserves.BackedBy next.reserves) := by
  cases s with
  | withdraw burned minimumA minimumB =>
    obtain ⟨rfl, -⟩ | ⟨q, quoted, rfl, -⟩ := outcome_settle ran
    · exact ⟨rfl, .inl rfl⟩
    · obtain ⟨⟨supplyPos, -⟩, -⟩ := Quote.withdraw_spec quoted
      exact ⟨rfl, .inr ⟨supplyPos, withdraw_backs admin quoted⟩⟩
  | deposit now amountA amountB minimum =>
    obtain ⟨rfl, -⟩ | ⟨q, quoted, rfl, -⟩ := outcome_settle ran
    · exact ⟨rfl, .inl rfl⟩
    · obtain ⟨supplyPos, -⟩ := Quote.deposit_spec quoted
      exact ⟨rfl, .inr ⟨supplyPos, deposit_backs proportional quoted⟩⟩
  | _ => exact proportional.elim

theorem Step.after_backs {s : Step} {start : Reserves} (admin : p.fees.AdminAtMostOne)
    (proportional : s.Proportional p) (backed : start.BackedBy p.reserves) :
    (s.after cap p).fees = p.fees ∧ start.BackedBy (s.after cap p).reserves := by
  obtain ⟨-, same⟩ | ⟨a, ran⟩ := s.after_cases cap p
  · rw [same]
    exact ⟨rfl, backed⟩
  · obtain ⟨sameFees, same | ⟨supplyPos, kept⟩⟩ := run_backs admin proportional ran
    · rw [same]
      exact ⟨sameFees, backed⟩
    · exact ⟨sameFees, backed.trans kept supplyPos⟩

theorem run_backs {steps : List Step} {start : Reserves} (admin : p.fees.AdminAtMostOne)
    (proportional : Along cap Step.Proportional p steps) (backed : start.BackedBy p.reserves) :
    start.BackedBy (run cap p steps).reserves := by
  induction steps generalizing p with
  | nil => exact backed
  | cons s steps inductionHypothesis =>
    obtain ⟨here, rest⟩ := proportional
    obtain ⟨sameFees, next⟩ : (s.after cap p).fees = p.fees ∧
        start.BackedBy (s.after cap p).reserves := Step.after_backs admin here backed
    exact inductionHypothesis (by rwa [sameFees]) rest next

/-! ## Runs of withdrawals -/

theorem along_of_withdrawals {steps : List Step} (withdrawals : ∀ s ∈ steps, s.IsWithdrawal) :
    Along cap Step.Proportional p steps := by
  induction steps generalizing p with
  | nil => trivial
  | cons s steps inductionHypothesis =>
    obtain ⟨burned, minimumA, minimumB, rfl⟩ := withdrawals s (by simp)
    exact ⟨trivial, inductionHypothesis fun t member => withdrawals t (by simp [member])⟩

theorem Step.moved_of_withdrawal {s : Step} (withdrawal : s.IsWithdrawal) :
    (∀ asset, (s.moved cap p).paidIn asset = 0) ∧ (s.moved cap p).minted = 0 := by
  obtain ⟨burned, minimumA, minimumB, rfl⟩ := withdrawal
  unfold Step.moved
  split
  · rename_i answer _
    cases answer <;> exact ⟨fun _ => rfl, rfl⟩
  · exact ⟨fun _ => rfl, rfl⟩

theorem moved_of_withdrawals {steps : List Step} (withdrawals : ∀ s ∈ steps, s.IsWithdrawal) :
    (∀ asset, (moved cap p steps).paidIn asset = 0) ∧ (moved cap p steps).minted = 0 := by
  induction steps generalizing p with
  | nil => exact ⟨fun _ => rfl, rfl⟩
  | cons s steps inductionHypothesis =>
    obtain ⟨unpaid, unminted⟩ : (∀ asset, (s.moved cap p).paidIn asset = 0) ∧
        (s.moved cap p).minted = 0 := Step.moved_of_withdrawal (withdrawals s (by simp))
    obtain ⟨unpaid', unminted'⟩ := inductionHypothesis (p := s.after cap p)
      fun t member => withdrawals t (by simp [member])
    constructor
    · intro asset
      simp only [moved, Movement.add, unpaid, unpaid', add_zero]
    · simp only [moved, Movement.add, unminted, unminted', add_zero]

/-- However a burn is split, users and the administrator get no more than its share. -/
theorem paidOut_le_share {steps : List Step} (admin : p.fees.AdminAtMostOne)
    (supplyPos : 1 ≤ p.reserves.supply.val) (withdrawals : ∀ s ∈ steps, s.IsWithdrawal)
    (asset : Asset) : (moved cap p steps).paidOut asset + (moved cap p steps).adminFee asset ≤
      ((p.reserves.get asset).val * (moved cap p steps).burned).fdiv p.reserves.supply.val := by
  have continue_ : ∀ s ∈ steps, s.Continues := by
    rintro s member policy amp reserveA reserveB rfl
    obtain ⟨_, _, _, isWithdrawal⟩ := withdrawals _ member
    cases isWithdrawal
  obtain ⟨unpaid, unminted⟩ : (∀ asset, (moved cap p steps).paidIn asset = 0) ∧
      (moved cap p steps).minted = 0 := moved_of_withdrawals withdrawals
  obtain ⟨reserves, supply⟩ : (moved cap p steps).Balances p.reserves (run cap p steps).reserves :=
    run_balances continue_
  have reserve := reserves asset
  have along : Along cap Step.Proportional p steps := along_of_withdrawals withdrawals
  have backed := run_backs admin along (.refl p.reserves) asset
  rw [unpaid] at reserve
  rw [unminted] at supply
  have positive : 0 < (p.reserves.supply.val : Int) := by omega
  zify at backed
  rw [reserve, supply] at backed
  rw [Int.fdiv_eq_ediv_of_nonneg _ positive.le, Int.le_ediv_iff_mul_le positive]
  linarith

/-- In a run of withdrawals in both assets and of deposits in the ratio of the reserves, no pool token
loses backing, and a burn that is split takes out no more than its share. -/
theorem backing_never_falls (cap : Nat) (p : Pool) (steps : List Step)
    (admin : p.fees.AdminAtMostOne) (supplyPos : 1 ≤ p.reserves.supply.val) :
    (Along cap Step.Proportional p steps → p.reserves.BackedBy (run cap p steps).reserves) ∧
      ((∀ s ∈ steps, s.IsWithdrawal) → ∀ asset,
        (moved cap p steps).paidOut asset + (moved cap p steps).adminFee asset ≤
          ((p.reserves.get asset).val * (moved cap p steps).burned).fdiv p.reserves.supply.val) :=
  ⟨fun proportional => run_backs admin proportional (.refl _),
    fun withdrawals asset => paidOut_le_share admin supplyPos withdrawals asset⟩

/-- Two withdrawals and a deposit in the ratio that the first one leaves, and a burn in two parts. -/
theorem backing_of_charging :
    let proportional : List Step := [.withdraw 60 0 0, .deposit 0 148 178 0, .withdraw 20 0 0]
    let split : List Step := [.withdraw 20 0 0, .withdraw 60 0 0]
    charging.fees.AdminAtMostOne ∧ 1 ≤ charging.reserves.supply.val ∧
      Along Curve.defaultCap Step.Proportional charging proportional ∧
      charging.reserves.BackedBy (run Curve.defaultCap charging proportional).reserves ∧
      (moved Curve.defaultCap charging split).burned = 80 ∧
      (moved Curve.defaultCap charging split).paidOut .a +
        (moved Curve.defaultCap charging split).adminFee .a ≤ 37 := by
  intro proportional split
  have admin : charging.fees.AdminAtMostOne := ⟨by decide, by decide⟩
  have along : Along Curve.defaultCap Step.Proportional charging proportional :=
    ⟨trivial, rfl, trivial, trivial⟩
  have withdrawals : ∀ s ∈ split, s.IsWithdrawal := by simp [split, Step.IsWithdrawal]
  exact ⟨admin, by decide, along,
    (backing_never_falls Curve.defaultCap charging proportional admin (by decide)).1 along, rfl,
    (backing_never_falls Curve.defaultCap charging split admin (by decide)).2 withdrawals .a⟩

end Pool

end PegPool
