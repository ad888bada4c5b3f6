import PegPool.Proofs.Exchange.Swap
import PegPool.Proofs.Exchange.Liquidity
import PegPool.Proofs.Pool.Steps

/-!
# The ledger of a run

A `Movement` is what one operation, or a whole run of them, moves between a pool, its users and the
administrator.  `Step.moved` reads it off the arguments and the answer of a step, and `moved` adds it
up along a run.  Nothing else changes the pool: whatever its coefficient and its fees do in between,
it holds what it began with and what the ledger says (`run_balances`, `tokens_conserved`).
-/

namespace PegPool

/-- What moves between a pool, its users and the administrator. -/
@[ext]
structure Movement where
  /-- Paid into the pool by users. -/
  paidIn : Asset → Int
  /-- Paid out of the pool to users. -/
  paidOut : Asset → Int
  /-- Paid out of the pool to the administrator. -/
  adminFee : Asset → Int
  minted : Int
  burned : Int

namespace Movement

def only (asset : Asset) (amount : Int) : Asset → Int :=
  fun any => if any = asset then amount else 0

def each (a b : Int) : Asset → Int
  | .a => a
  | .b => b

def none : Movement := ⟨fun _ => 0, fun _ => 0, fun _ => 0, 0, 0⟩

def add (m n : Movement) : Movement where
  paidIn asset := m.paidIn asset + n.paidIn asset
  paidOut asset := m.paidOut asset + n.paidOut asset
  adminFee asset := m.adminFee asset + n.adminFee asset
  minted := m.minted + n.minted
  burned := m.burned + n.burned

@[simp] theorem only_self (asset : Asset) (amount : Int) : only asset amount asset = amount :=
  if_pos rfl

@[simp] theorem only_other (asset : Asset) (amount : Int) : only asset amount asset.other = 0 := by
  cases asset <;> rfl

@[simp] theorem only_of_other (asset : Asset) (amount : Int) : only asset.other amount asset = 0 := by
  cases asset <;> rfl

/-- The movement leads from the one reserves to the other ones. -/
structure Balances (m : Movement) (before after : Reserves) : Prop where
  reserve : ∀ asset, ((after.get asset).val : Int) =
    (before.get asset).val + m.paidIn asset - m.paidOut asset - m.adminFee asset
  supply : (after.supply.val : Int) = before.supply.val + m.minted - m.burned

theorem none_balances (r : Reserves) : none.Balances r r := by
  constructor
  · intro asset
    simp only [none]
    omega
  · simp only [none]
    omega

theorem Balances.add {m n : Movement} {first second third : Reserves}
    (one : m.Balances first second) (two : n.Balances second third) :
    (m.add n).Balances first third := by
  constructor
  · intro asset
    have := one.reserve asset
    have := two.reserve asset
    simp only [Movement.add]
    omega
  · have := one.supply
    have := two.supply
    simp only [Movement.add]
    omega

end Movement

namespace Pool

open Movement (only each only_self only_other only_of_other)

variable {cap : Nat} {p next : Pool}

/-- What a step moves, by its arguments and its answer. -/
def Step.movement : Step → Answer → Movement
  | swap _ amountIn _ direction, .swap q =>
      { paidIn := only direction.source amountIn
        paidOut := only direction.destination q.amounts.amountSwapped
        adminFee := only direction.destination q.amounts.adminFee
        minted := 0
        burned := 0 }
  | deposit _ amountA amountB _, .deposit q =>
      { Movement.none with paidIn := each amountA amountB, minted := q.minted }
  | withdraw burned _ _, .withdrawal q =>
      { Movement.none with
        paidOut asset := (q.share asset).amount
        adminFee asset := (q.share asset).adminFee
        burned }
  | withdrawOne _ burned _ base, .oneWithdrawal q =>
      { Movement.none with
        paidOut := only base q.amount
        adminFee := only base q.adminFee
        burned }
  | _, _ => .none

/-- What a step moves at a pool; a step that fails moves nothing. -/
def Step.moved (cap : Nat) (p : Pool) (s : Step) : Movement :=
  match (s.run cap p).outcome with
  | .ok (_, answer) => s.movement answer
  | .error _ => .none

def moved (cap : Nat) : Pool → List Step → Movement
  | _, [] => .none
  | p, s :: rest => (s.moved cap p).add (moved cap (s.after cap p) rest)

/-- The step founds no pool, so it works with the reserves that are there. -/
def Step.Continues (s : Step) : Prop :=
  ∀ policy amp reserveA reserveB, s ≠ .found policy amp reserveA reserveB

/-! ## Steps -/

section Quotes

variable {now amountIn minimum : Int}

theorem swap_balances {direction : Direction} {q : Quote.Swap}
    (quoted : (Quote.swap cap p now amountIn minimum direction).outcome = .ok (some q)) :
    ((Step.swap now amountIn minimum direction).movement (.swap q)).Balances p.reserves
      q.newReserves := by
  obtain ⟨swapped, isSource, isDestination, sameSupply⟩ := Quote.swap_spec quoted
  obtain ⟨d, y, priced⟩ := Exchange.exists_pricedSwap swapped
  have newSource := priced.isNewSource
  have destination := priced.isDestination
  have newDestination := priced.isNewDestination
  constructor
  · refine Asset.forall_of_other direction.source ?_ ?_
    · simp only [Step.movement, Direction.destination, only_self, only_of_other]
      omega
    · change ((q.newReserves.get direction.destination).val : Int) = _
      simp only [Step.movement, Direction.destination, only_self, only_other] at *
      omega
  · simp only [Step.movement, sameSupply]
    omega

theorem deposit_balances {amountA amountB : Int} {q : Quote.Deposit}
    (quoted : (Quote.deposit cap p now amountA amountB minimum).outcome = .ok (some q)) :
    ((Step.deposit now amountA amountB minimum).movement (.deposit q)).Balances p.reserves
      q.newReserves := by
  obtain ⟨-, -, isA, isB, isSupply⟩ := Quote.deposit_spec quoted
  constructor
  · intro asset
    cases asset with
    | a =>
      simp only [Step.movement, each, Movement.none, Reserves.get]
      omega
    | b =>
      simp only [Step.movement, each, Movement.none, Reserves.get]
      omega
  · simp only [Step.movement, Movement.none]
    omega

theorem withdraw_balances {burned minimumA minimumB : Int} {q : Quote.Withdrawal}
    (quoted : (Quote.withdraw p burned minimumA minimumB).outcome = .ok (some q)) :
    ((Step.withdraw burned minimumA minimumB).movement (.withdrawal q)).Balances p.reserves
      q.newReserves := by
  obtain ⟨-, -, isReserve, isSupply⟩ := Quote.withdraw_spec quoted
  constructor
  · intro asset
    have := isReserve asset
    simp only [Step.movement, Movement.none]
    omega
  · simp only [Step.movement, Movement.none]
    omega

theorem withdrawOne_balances {burned : Int} {base : Asset} {q : Quote.OneWithdrawal}
    (quoted : (Quote.withdrawOne cap p now burned minimum base).outcome = .ok (some q)) :
    ((Step.withdrawOne now burned minimum base).movement (.oneWithdrawal q)).Balances p.reserves
      q.newReserves := by
  obtain ⟨-, w, adminTrade, adminWithdraw, -, -, -, -, -, -, isBase, sameOther, isSupply⟩ :=
    Quote.withdrawOne_spec quoted
  constructor
  · refine Asset.forall_of_other base ?_ ?_
    · simp only [Step.movement, only_self, Movement.none]
      omega
    · simp only [Step.movement, only_other, Movement.none, sameOther]
      omega
  · simp only [Step.movement, Movement.none]
    omega

end Quotes

theorem Step.run_balances {s : Step} {a : Answer} (continues : s.Continues)
    (ran : (s.run cap p).outcome = .ok (next, a)) :
    (s.movement a).Balances p.reserves next.reserves := by
  cases s with
  | found policy amp reserveA reserveB => exact absurd rfl (continues policy amp reserveA reserveB)
  | swap now amountIn minimum direction =>
    obtain ⟨rfl, rfl⟩ | ⟨q, quoted, rfl, rfl⟩ := outcome_settle ran
    · exact Movement.none_balances _
    · exact swap_balances quoted
  | deposit now amountA amountB minimum =>
    obtain ⟨rfl, rfl⟩ | ⟨q, quoted, rfl, rfl⟩ := outcome_settle ran
    · exact Movement.none_balances _
    · exact deposit_balances quoted
  | withdraw burned minimumA minimumB =>
    obtain ⟨rfl, rfl⟩ | ⟨q, quoted, rfl, rfl⟩ := outcome_settle ran
    · exact Movement.none_balances _
    · exact withdraw_balances quoted
  | withdrawOne now burned minimum base =>
    obtain ⟨rfl, rfl⟩ | ⟨q, quoted, rfl, rfl⟩ := outcome_settle ran
    · exact Movement.none_balances _
    · exact withdrawOne_balances quoted
  | ramp step =>
    simp only [run, Traced.outcome_bind, Traced.outcome_mapError, bind_eq_ok, mapError_eq_ok] at ran
    obtain ⟨⟨r, answer⟩, -, ended⟩ := ran
    cases ended
    exact Movement.none_balances _
  | fees read =>
    simp only [run, Traced.outcome_bind, bind_eq_ok] at ran
    obtain ⟨f, -, ended⟩ := ran
    cases ended
    exact Movement.none_balances _

theorem Step.after_balances {s : Step} (continues : s.Continues) :
    (s.moved cap p).Balances p.reserves (s.after cap p).reserves := by
  unfold Step.moved
  obtain ⟨⟨e, failed⟩, same⟩ | ⟨a, ran⟩ := s.after_cases cap p
  · rw [failed, same]
    exact Movement.none_balances _
  · rw [ran]
    exact Step.run_balances continues ran

/-! ## Runs -/

theorem run_balances {steps : List Step} (continue_ : ∀ s ∈ steps, s.Continues) :
    (moved cap p steps).Balances p.reserves (run cap p steps).reserves := by
  induction steps generalizing p with
  | nil => exact Movement.none_balances _
  | cons s steps inductionHypothesis =>
    have first : (s.moved cap p).Balances p.reserves (s.after cap p).reserves :=
      Step.after_balances (continue_ s (by simp))
    have rest := inductionHypothesis (p := s.after cap p) fun t member => continue_ t (by simp [member])
    exact first.add rest

/-- Nothing is lost or made: after every run, whatever becomes of the coefficient and the fees on the
way, a pool holds what it held at first and what users paid, less what they and the administrator
got, and its supply is the first one and what was minted, less what was burned.  In each quote the
amounts add up as well: a swap divides the output of the curve, but for the unit that it withholds,
and a withdrawal in both assets the shares of the burned tokens.  A withdrawal in one asset leaves the
other one alone. -/
theorem tokens_conserved (cap : Nat) :
    (∀ (p : Pool) (steps : List Step), (∀ s ∈ steps, s.Continues) →
      (moved cap p steps).Balances p.reserves (run cap p steps).reserves) ∧
    (∀ (p : Pool) (now amountIn minimum : Int) (direction : Direction) (q : Quote.Swap),
      (Quote.swap cap p now amountIn minimum direction).outcome = .ok (some q) →
      (Curve.output cap amountIn (p.reserves.get direction.source).val
        (p.reserves.get direction.destination).val ((p.ramp.factor now : Nat) : Int)).outcome =
          .ok (q.amounts.amountSwapped + q.amounts.fee + 1)) ∧
    (∀ (p : Pool) (burned minimumA minimumB : Int) (q : Quote.Withdrawal),
      (Quote.withdraw p burned minimumA minimumB).outcome = .ok (some q) →
      ∀ asset, ((q.share asset).amount + (q.share asset).fee : Int) =
        ((p.reserves.get asset).val * burned).fdiv p.reserves.supply.val) ∧
    (∀ (p : Pool) (now burned minimum : Int) (base : Asset) (q : Quote.OneWithdrawal),
      (Quote.withdrawOne cap p now burned minimum base).outcome = .ok (some q) →
      q.newReserves.get base.other = p.reserves.get base.other) := by
  refine ⟨fun p steps continue_ => run_balances continue_, ?_, ?_, ?_⟩
  · intro p now amountIn minimum direction q quoted
    obtain ⟨swapped, -⟩ := Quote.swap_spec quoted
    exact Exchange.output_of_swap swapped
  · intro p burned minimumA minimumB q quoted asset
    obtain ⟨-, priced, -⟩ := Quote.withdraw_spec quoted
    obtain ⟨isShare, -⟩ := Exchange.withdrawShare_spec (priced asset)
    obtain ⟨-, -, -, -, isQuotient, -⟩ := mulDiv_eq_ok.mp isShare
    exact_mod_cast isQuotient
  · intro p now burned minimum base q quoted
    obtain ⟨-, w, adminTrade, adminWithdraw, -, -, -, -, -, -, -, sameOther, -⟩ :=
      Quote.withdrawOne_spec quoted
    exact sameOther

/-- A pool that keeps a tenth of what it pays out and gives half of that to the administrator. -/
def charging : Pool where
  ramp := steady
  fees :=
    let half : Rate := ⟨⟨5, by decide⟩, ⟨10, by decide⟩⟩
    let tenth : Rate := ⟨.one, ⟨10, by decide⟩⟩
    ⟨half, half, tenth, tenth⟩
  reserves := ⟨⟨100, by decide⟩, ⟨120, by decide⟩, ⟨215, by decide⟩⟩

/-- Its fees are lifted in the middle of a run of all four operations, one of which fails.  The swap
at its beginning has an output of 30, of a withdrawal of 60 tokens 27 units of the first asset are the
share, and a withdrawal in the second asset leaves the first one. -/
theorem tokens_conserved_of_charging :
    let steps : List Step := [.swap 0 30 0 .aToB, .deposit 0 50 7 0, .fees (.ok .free),
      .withdraw 60 0 0, .swap 0 30 1000 .bToA, .withdrawOne 0 40 0 .b]
    (run Curve.defaultCap charging steps).reserves =
        ⟨⟨140, by decide⟩, ⟨45, by decide⟩, ⟨166, by decide⟩⟩ ∧
      (moved Curve.defaultCap charging steps).Balances charging.reserves
        (run Curve.defaultCap charging steps).reserves ∧
      (Curve.output Curve.defaultCap (30 : Int) (100 : Int) (120 : Int) (1 : Int)).outcome =
        .ok 30 ∧
      (100 * 60 : Int).fdiv 215 = 25 + 2 ∧
      ∃ q, (Quote.withdrawOne Curve.defaultCap charging 0 40 0 .b).outcome = .ok (some q) ∧
        q.newReserves.a.val = 100 := by
  obtain ⟨balanced, ofSwap, ofWithdrawal, ofOneWithdrawal⟩ := tokens_conserved Curve.defaultCap
  refine ⟨rfl, balanced _ _ (by simp [Step.Continues]), ?_, ?_, ?_⟩
  · exact ofSwap charging 0 30 0 .aToB
      ⟨.aToB, 30, ⟨130, 92, 27, 1, 2⟩, ⟨⟨130, by decide⟩, ⟨92, by decide⟩, ⟨215, by decide⟩⟩⟩ rfl
  · exact (ofWithdrawal charging 60 0 0 ⟨60, ⟨25, 2, 1⟩, ⟨30, 3, 1⟩,
      ⟨⟨74, by decide⟩, ⟨89, by decide⟩, ⟨155, by decide⟩⟩⟩ rfl .a).symm
  · have quoted : (Quote.withdrawOne Curve.defaultCap charging 0 40 0 .b).outcome =
        .ok (some ⟨.b, 40, 36, 1, 4, 2, ⟨⟨100, by decide⟩, ⟨82, by decide⟩, ⟨175, by decide⟩⟩⟩) := rfl
    exact ⟨_, quoted, congrArg Amount.val (ofOneWithdrawal charging 0 40 0 .b _ quoted)⟩

end Pool

end PegPool
