import PegPool.Proofs.Exchange.DepositOrder
import PegPool.Proofs.Pool.LiveReserves
import PegPool.Proofs.Quote.Ending

/-!
# Exchanging the two assets

A swap and the two withdrawals see the reserves only as those of the source and the destination, of
the base and the quote asset, or one by one: if the assets are exchanged in the pool and in the
request, they are exchanged in the quote (`SwapEnding.relabelled` and its like).  A founding and a
deposit give the reserves to the invariant in the order of the assets, and the invariant divides by
one reserve at a time, so it may depend on their order.  They follow as far as it does not
(`OrderFree`), and so does every deposit in the ratio of the reserves; with reserves of which none is
more than 19 times the other one, it makes a difference of at most one.  An error that tells of one
reserve may tell of the other one instead, which matters if just one of them can be written.
-/

namespace PegPool

namespace Reserves

variable (r : Reserves)

@[simp] theorem get_swapped (asset : Asset) : r.swapped.get asset.other = r.get asset := by
  cases asset with
  | a => rfl
  | b => rfl

end Reserves

@[simp] theorem Direction.source_reverse (direction : Direction) :
    direction.reverse.source = direction.source.other := by
  cases direction with
  | aToB => rfl
  | bToA => rfl

@[simp] theorem Direction.destination_reverse (direction : Direction) :
    direction.reverse.destination = direction.destination.other := by
  cases direction with
  | aToB => rfl
  | bToA => rfl

/-! ## What is exchanged -/

def Pool.relabelled (pool : Pool) : Pool :=
  { pool with reserves := pool.reserves.swapped }

def Operation.relabelled : Operation → Operation
  | create amp reserveA reserveB => create amp reserveB reserveA
  | swap amountIn direction => swap amountIn direction.reverse
  | deposit amountA amountB => deposit amountB amountA
  | withdraw burned => withdraw burned
  | withdrawOne burned base => withdrawOne burned base.other

def QuoteError.relabelled : QuoteError → QuoteError
  | calculation operation => calculation operation.relabelled
  | error => error

namespace Quote

def Founding.relabelled (q : Founding) : Founding :=
  { q with reserves := q.reserves.swapped }

def Swap.relabelled (q : Swap) : Swap :=
  { q with direction := q.direction.reverse, newReserves := q.newReserves.swapped }

def Deposit.relabelled (q : Deposit) : Deposit :=
  { q with newReserves := q.newReserves.swapped }

def Withdrawal.relabelled (q : Withdrawal) : Withdrawal :=
  { q with a := q.b, b := q.a, newReserves := q.newReserves.swapped }

def OneWithdrawal.relabelled (q : OneWithdrawal) : OneWithdrawal :=
  { q with base := q.base.other, newReserves := q.newReserves.swapped }

/-- The outcome with the assets exchanged in the quote or in the error. -/
def mirrored {α : Type} (relabelled : α → α) : Except QuoteError α → Except QuoteError α
  | .ok q => .ok (relabelled q)
  | .error e => .error e.relabelled

section Errors

variable {α : Type} {relabelled : α → α}

theorem told_relabelled {e : QuoteError} (same : e.relabelled = e) : e.told.relabelled = e.told := by
  unfold QuoteError.told
  split
  · exact same
  · rfl

theorem mirrored_told {e : QuoteError} (same : e.relabelled = e) :
    mirrored relabelled (.error e.told) = .error e.told :=
  congrArg Except.error (told_relabelled same)

theorem ofFault_relabelled (operation : Operation) (fault : Fault) :
    (QuoteError.ofFault operation fault).relabelled = .ofFault operation.relabelled fault := by
  unfold QuoteError.ofFault
  split <;> rfl

theorem mirrored_ofFault (operation : Operation) (fault : Fault) :
    mirrored relabelled (.error (.ofFault operation fault)) =
      .error (.ofFault operation.relabelled fault) :=
  congrArg Except.error (ofFault_relabelled operation fault)

theorem ofFault_congr {fault fault' : Fault} (operation : Operation)
    (alike : fault.isCaught = fault'.isCaught) :
    QuoteError.ofFault operation fault = .ofFault operation fault' := by
  unfold QuoteError.ofFault
  rw [alike]

end Errors

variable {cap : Nat} {pool : Pool} {now minimum : Int}

/-! ## Swaps and withdrawals -/

section Swap

variable {amountIn : Int} {direction : Direction}

theorem pricedSwap_relabelled : pricedSwap cap pool.relabelled now amountIn direction.reverse =
    pricedSwap cap pool now amountIn direction := by
  simp only [pricedSwap, Pool.relabelled, Direction.source_reverse, Direction.destination_reverse,
    Reserves.get_swapped]

theorem SwapEnding.relabelled {x : Except QuoteError (Option Swap)}
    (ending : SwapEnding cap pool now amountIn minimum direction x) :
    SwapEnding cap pool.relabelled now amountIn minimum direction.reverse
      (mirrored (Option.map Swap.relabelled) x) := by
  cases ending with
  | nothing zero => exact .nothing zero
  | failed nonzero failed =>
    rw [mirrored_ofFault]
    exact .failed nonzero (by rwa [pricedSwap_relabelled])
  | short nonzero priced less =>
    rw [mirrored_told rfl]
    exact .short nonzero (by rwa [pricedSwap_relabelled]) less
  | swapped nonzero priced enough isSource isDestination sameSupply =>
    refine .swapped nonzero (by rwa [pricedSwap_relabelled]) enough ?_ ?_ sameSupply
    · rw [Direction.source_reverse, Reserves.get_swapped]
      exact isSource
    · rw [Direction.destination_reverse, Reserves.get_swapped]
      exact isDestination

theorem swap_relabelled : (swap cap pool.relabelled now amountIn minimum direction.reverse).outcome =
    mirrored (Option.map Swap.relabelled) (swap cap pool now amountIn minimum direction).outcome := by
  obtain ⟨x, ending⟩ := exists_swapEnding cap pool now amountIn minimum direction
  rw [ending.outcome, ending.relabelled.outcome]

end Swap

section WithdrawOne

variable {burned : Int} {base : Asset} {w : Exchange.Withdrawal} {withdrawFee amount : Nat}

theorem pricedOne_relabelled : pricedOne cap pool.relabelled now burned base.other =
    pricedOne cap pool now burned base := by
  simp only [pricedOne, Pool.relabelled, Reserves.get_swapped]
  rfl

theorem charged_relabelled :
    Charged cap pool.relabelled now burned base.other w withdrawFee amount ↔
      Charged cap pool now burned base w withdrawFee amount := by
  constructor
  · rintro ⟨priced, charged, isAmount⟩
    rw [pricedOne_relabelled] at priced
    exact ⟨priced, charged, isAmount⟩
  · rintro ⟨priced, charged, isAmount⟩
    exact ⟨by rwa [pricedOne_relabelled], charged, isAmount⟩

theorem WithdrawOneEnding.relabelled {x : Except QuoteError (Option OneWithdrawal)}
    (ending : WithdrawOneEnding cap pool now burned minimum base x) :
    WithdrawOneEnding cap pool.relabelled now burned minimum base.other
      (mirrored (Option.map OneWithdrawal.relabelled) x) := by
  cases ending with
  | nothing zero => exact .nothing zero
  | empty nonzero noSupply => exact .empty nonzero noSupply
  | overBurn nonzero supplyPos exceeds =>
    rw [mirrored_told rfl]
    exact .overBurn nonzero supplyPos exceeds
  | failed nonzero burnable failed =>
    rw [mirrored_ofFault]
    exact .failed nonzero burnable (by rwa [pricedOne_relabelled])
  | uncharged nonzero burnable priced uncharged =>
    refine .uncharged nonzero burnable (by rwa [pricedOne_relabelled]) ?_
    intro withdrawFee amount
    rw [charged_relabelled]
    exact uncharged withdrawFee amount
  | short nonzero burnable charged less =>
    rw [mirrored_told rfl]
    exact .short nonzero burnable (charged_relabelled.mpr charged) less
  | unbacked nonzero burnable charged enough lacks =>
    refine .unbacked nonzero burnable (charged_relabelled.mpr charged) enough ?_
    simpa only [Pool.relabelled, Reserves.get_swapped] using lacks
  | withdrawn nonzero burnable charged enough isAdminFee isBase sameOther isSupply =>
    refine .withdrawn nonzero burnable (charged_relabelled.mpr charged) enough isAdminFee ?_ ?_ isSupply
    · simpa only [Pool.relabelled, Reserves.get_swapped] using isBase
    · simpa only [Pool.relabelled, Reserves.get_swapped] using sameOther

theorem withdrawOne_relabelled :
    (withdrawOne cap pool.relabelled now burned minimum base.other).outcome =
      mirrored (Option.map OneWithdrawal.relabelled)
        (withdrawOne cap pool now burned minimum base).outcome := by
  obtain ⟨x, ending⟩ := exists_withdrawOneEnding cap pool now burned minimum base
  rw [ending.outcome, ending.relabelled.outcome]

end WithdrawOne

section Withdraw

variable {burned minimumA minimumB : Int} {a b : Exchange.ShareAmounts}

/-- The outcomes of a withdrawal in both assets mirror each other.  If both amounts are below their
minimum, each order refuses the one that it looks at first. -/
inductive MirrorsWithdrawal (pool : Pool) (burned minimumA minimumB : Int) :
    Except QuoteError (Option Withdrawal) → Except QuoteError (Option Withdrawal) → Prop where
  | exactly (x : Except QuoteError (Option Withdrawal)) :
      MirrorsWithdrawal pool burned minimumA minimumB x (mirrored (Option.map Withdrawal.relabelled) x)
  | bothShort {a b : Exchange.ShareAmounts} (priced : PricedShares pool burned a b)
      (lessA : (a.amount : Int) < minimumA) (lessB : (b.amount : Int) < minimumB) :
      MirrorsWithdrawal pool burned minimumA minimumB
        (.error (QuoteError.slippage minimumA a.amount).told)
        (.error (QuoteError.slippage minimumB b.amount).told)

theorem PricedShares.relabelled (priced : PricedShares pool burned a b) :
    PricedShares pool.relabelled burned b a :=
  ⟨priced.2, priced.1⟩

theorem isCaught_of_withdrawBoth {r : Reserves} {fees : Fees} {fault : Fault}
    (failed : Exchange.withdrawBoth fees burned r.supply.val r.a.val r.b.val = .error fault) :
    fault.isCaught = Text.isWritable burned := by
  cases writable : Text.isWritable burned with
  | true =>
    have caught := Exchange.withdrawBoth_caught fees writable r.supply.isWritable r.a.isWritable
      r.b.isWritable
    exact caught.faults fault failed
  | false =>
    obtain ⟨word, isWord⟩ := r.a.exists_word
    have readA : Word.ofInt r.a.val = .ok word := Word.ofInt_eq_ok.mpr (by omega)
    cases read : Word.ofInt burned with
    | ok w =>
      rw [← Word.ofInt_eq_ok.mp read, Text.isWritable_word] at writable
      cases writable
    | error e =>
      simp only [Exchange.withdrawBoth, Exchange.withdrawShare, mulDiv, Word.read_int, readA, ok_bind,
        read, error_bind, Except.error.injEq] at failed
      rw [← failed, Word.isCaught_of_ofInt read, writable]

theorem WithdrawEnding.relabelled {x : Except QuoteError (Option Withdrawal)}
    (ending : WithdrawEnding pool burned minimumA minimumB x) :
    ∃ y, WithdrawEnding pool.relabelled burned minimumB minimumA y ∧
      MirrorsWithdrawal pool burned minimumA minimumB x y := by
  have exactly {x : Except QuoteError (Option Withdrawal)} {y : Except QuoteError (Option Withdrawal)}
      (ending' : WithdrawEnding pool.relabelled burned minimumB minimumA y)
      (same : mirrored (Option.map Withdrawal.relabelled) x = y) :
      ∃ y, WithdrawEnding pool.relabelled burned minimumB minimumA y ∧
        MirrorsWithdrawal pool burned minimumA minimumB x y :=
    ⟨y, ending', same ▸ .exactly x⟩
  cases ending with
  | nothing zero => exact exactly (.nothing zero) rfl
  | empty nonzero noSupply => exact exactly (.empty nonzero noSupply) rfl
  | overBurn nonzero supplyPos exceeds =>
    exact exactly (.overBurn nonzero supplyPos exceeds) (mirrored_told rfl)
  | @failed fault nonzero burnable failed =>
    cases price : Exchange.withdrawBoth pool.fees burned pool.reserves.supply.val pool.reserves.b.val
      pool.reserves.a.val with
    | ok shares =>
      have priced : PricedShares pool.relabelled burned shares.1 shares.2 := withdrawBoth_eq_ok.mp price
      cases failed.symm.trans (withdrawBoth_eq_ok.mpr priced.relabelled)
    | error fault' =>
      have alike : fault.isCaught = fault'.isCaught := by
        rw [isCaught_of_withdrawBoth failed, isCaught_of_withdrawBoth (r := pool.reserves.swapped) price]
      refine exactly (.failed nonzero burnable price) ?_
      rw [mirrored_ofFault, ofFault_congr _ alike]
      rfl
  | @shortA a b nonzero burnable priced lessA =>
    -- the other asset is looked at first now
    obtain lessB | enoughB := lt_or_ge (b.amount : Int) minimumB
    · exact ⟨_, .shortA nonzero burnable priced.relabelled lessB, .bothShort priced lessA lessB⟩
    · exact exactly (.shortB nonzero burnable priced.relabelled enoughB lessA) (mirrored_told rfl)
  | shortB nonzero burnable priced enoughA lessB =>
    exact exactly (.shortA nonzero burnable priced.relabelled lessB) (mirrored_told rfl)
  | unbacked nonzero burnable priced enoughA enoughB lacks =>
    exact exactly (.unbacked nonzero burnable priced.relabelled enoughB enoughA lacks.symm) rfl
  | @withdrawn a b next nonzero burnable priced enoughA enoughB isA isB isSupply =>
    have ending' : WithdrawEnding pool.relabelled burned minimumB minimumA
        (.ok (some ⟨burned, b, a, next.swapped⟩)) :=
      .withdrawn nonzero burnable priced.relabelled enoughB enoughA isB isA isSupply
    exact exactly ending' rfl

theorem withdraw_relabelled : MirrorsWithdrawal pool burned minimumA minimumB
    (withdraw pool burned minimumA minimumB).outcome
    (withdraw pool.relabelled burned minimumB minimumA).outcome := by
  obtain ⟨x, ending⟩ := exists_withdrawEnding pool burned minimumA minimumB
  obtain ⟨y, ending', mirrors⟩ := ending.relabelled
  rw [ending.outcome, ending'.outcome]
  exact mirrors

end Withdraw

/-! ## Deposits and foundings -/

section Deposit

variable {amountA amountB : Int}

/-- None of the invariants that a deposit solves depends on the order of the reserves, or the deposit is
in their ratio. -/
def UnorderedDeposit (pool : Pool) (now amountA amountB : Int) : Prop :=
  amountA * pool.reserves.b.val ≠ amountB * pool.reserves.a.val →
    Exchange.DepositOrderFree Curve.defaultCap pool.fees (pool.ramp.factor now) amountA amountB
      pool.reserves.a.val pool.reserves.b.val

/-- The new reserves of a deposit are told of alike. -/
def DepositToldAlike (pool : Pool) (amountA amountB : Int) : Prop :=
  Curve.ToldAlike (2 ^ 64) (pool.reserves.a.val + amountA) (pool.reserves.b.val + amountB)

/-- The outcomes of a deposit mirror each other, up to which errors if they are not told of alike. -/
inductive MirrorsDeposit (pool : Pool) (amountA amountB : Int) :
    Except QuoteError (Option Deposit) → Except QuoteError (Option Deposit) → Prop where
  | failed (e e' : QuoteError) (same : DepositToldAlike pool amountA amountB → e' = e.relabelled) :
      MirrorsDeposit pool amountA amountB (.error e) (.error e')
  | quoted (q : Option Deposit) :
      MirrorsDeposit pool amountA amountB (.ok q) (.ok (q.map Deposit.relabelled))

theorem MirrorsDeposit.eq_mirrored {x y : Except QuoteError (Option Deposit)}
    (mirrors : MirrorsDeposit pool amountA amountB x y) (alike : DepositToldAlike pool amountA amountB) :
    y = mirrored (Option.map Deposit.relabelled) x := by
  cases mirrors with
  | failed e e' same =>
    rw [same alike]
    rfl
  | quoted q => rfl

theorem pricedDeposit_relabelled {n : Nat} (supplyPos : 0 < pool.reserves.supply.val)
    (unordered : UnorderedDeposit pool now amountA amountB) :
    pricedDeposit Curve.defaultCap pool.relabelled now amountB amountA = .ok n ↔
      pricedDeposit Curve.defaultCap pool now amountA amountB = .ok n := by
  constructor
  · exact Exchange.mintForDeposit_swapped (by exact_mod_cast supplyPos)
      fun unbalanced => (unordered unbalanced.symm).symm
  · exact Exchange.mintForDeposit_swapped (by exact_mod_cast supplyPos) unordered

theorem pricedDeposit_failAlike (alike : DepositToldAlike pool amountA amountB) :
    FailAlike (pricedDeposit Curve.defaultCap pool now amountA amountB)
      (pricedDeposit Curve.defaultCap pool.relabelled now amountB amountA) := by
  obtain ⟨ra, isA⟩ := pool.reserves.a.exists_word
  obtain ⟨rb, isB⟩ := pool.reserves.b.exists_word
  unfold DepositToldAlike at alike
  rw [← isA, ← isB] at alike
  have capPos : 1 ≤ Curve.defaultCap := by decide
  have fails := Exchange.mintForDeposit_failAlike capPos pool.fees (pool.ramp.factor now) alike
    pool.reserves.supply.isWritable
  rw [isA, isB] at fails
  exact fails

theorem DepositEnding.relabelled {x : Except QuoteError (Option Deposit)}
    (unordered : UnorderedDeposit pool now amountA amountB)
    (ending : DepositEnding Curve.defaultCap pool now amountA amountB minimum x) :
    ∃ y, DepositEnding Curve.defaultCap pool.relabelled now amountB amountA minimum y ∧
      MirrorsDeposit pool amountA amountB x y := by
  cases ending with
  | nothing zero => exact ⟨_, .nothing zero.symm, .quoted none⟩
  | empty nonzero noSupply => exact ⟨_, .empty (by tauto) noSupply, .failed _ _ fun _ => rfl⟩
  | @failed fault nonzero supplyPos failed =>
    cases price : pricedDeposit Curve.defaultCap pool.relabelled now amountB amountA with
    | ok minted => cases failed.symm.trans ((pricedDeposit_relabelled supplyPos unordered).mp price)
    | error fault' =>
      refine ⟨_, .failed (by tauto) supplyPos price, .failed _ _ fun alike => ?_⟩
      rw [ofFault_relabelled, ofFault_congr _ (pricedDeposit_failAlike alike fault fault' failed price)]
      rfl
  | short nonzero supplyPos priced less =>
    exact ⟨_, .short (by tauto) supplyPos ((pricedDeposit_relabelled supplyPos unordered).mpr priced) less,
      .failed _ _ fun _ => (told_relabelled rfl).symm⟩
  | overflow nonzero supplyPos priced enough exceeds =>
    exact ⟨_, .overflow (by tauto) supplyPos ((pricedDeposit_relabelled supplyPos unordered).mpr priced)
      enough exceeds, .failed _ _ fun _ => rfl⟩
  | @deposited minted next nonzero supplyPos priced enough isA isB isSupply =>
    have ending' : DepositEnding Curve.defaultCap pool.relabelled now amountB amountA minimum
        (.ok (some ⟨minted, next.swapped⟩)) :=
      .deposited (by tauto) supplyPos ((pricedDeposit_relabelled supplyPos unordered).mpr priced) enough
        isB isA isSupply
    exact ⟨_, ending', .quoted (some (⟨minted, next⟩ : Deposit))⟩

theorem deposit_relabelled (unordered : UnorderedDeposit pool now amountA amountB) :
    MirrorsDeposit pool amountA amountB
      (deposit Curve.defaultCap pool now amountA amountB minimum).outcome
      (deposit Curve.defaultCap pool.relabelled now amountB amountA minimum).outcome := by
  obtain ⟨x, ending⟩ := exists_depositEnding Curve.defaultCap pool now amountA amountB minimum
  obtain ⟨y, ending', mirrors⟩ := ending.relabelled unordered
  rw [ending.outcome, ending'.outcome]
  exact mirrors

end Deposit

section Found

variable {policy : RampPolicy} {amp reserveA reserveB : Int}

/-- The foundings mirror each other, up to what is minted, and up to which errors if the reserves are not
told of alike. -/
inductive MirrorsFounding (amp reserveA reserveB : Int) :
    Except QuoteError Founding → Except QuoteError Founding → Prop where
  | failed (e e' : QuoteError)
      (same : Curve.ToldAlike (2 ^ 256) reserveA reserveB → e' = e.relabelled) :
      MirrorsFounding amp reserveA reserveB (.error e) (.error e')
  | founded (q q' : Founding) (ramp : q'.ramp = q.ramp) (a : q'.reserves.a = q.reserves.b)
      (b : q'.reserves.b = q.reserves.a)
      (near : reserveA ≤ 19 * reserveB → reserveB ≤ 19 * reserveA →
        q.minted ≤ q'.minted + 1 ∧ q'.minted ≤ q.minted + 1)
      (same : Curve.OrderFree Curve.defaultCap amp reserveA reserveB → q' = q.relabelled) :
      MirrorsFounding amp reserveA reserveB (.ok q) (.ok q')

theorem Foundable.swapped (foundable : Foundable policy amp reserveA reserveB) :
    Foundable policy amp reserveB reserveA :=
  ⟨foundable.contained, foundable.bNonzero, foundable.aNonzero, foundable.nonneg⟩

theorem FoundEnding.relabelled {x : Except QuoteError Founding}
    (ending : FoundEnding Curve.defaultCap policy amp reserveA reserveB x) :
    ∃ y, FoundEnding Curve.defaultCap policy amp reserveB reserveA y ∧
      MirrorsFounding amp reserveA reserveB x y := by
  cases ending with
  | invalidAmp outside =>
    exact ⟨_, .invalidAmp outside, .failed _ _ fun _ => (told_relabelled rfl).symm⟩
  | emptyReserve contained zero =>
    exact ⟨_, .emptyReserve contained zero.symm, .failed _ _ fun _ => rfl⟩
  | malformedRamp contained aNonzero bNonzero negative =>
    exact ⟨_, .malformedRamp contained bNonzero aNonzero negative, .failed _ _ fun _ => rfl⟩
  | @failed fault foundable failed =>
    cases invariant' : (Curve.invariant Curve.defaultCap reserveB reserveA amp).outcome with
    | ok d =>
      obtain ⟨d', calculated⟩ := Curve.exists_invariant_swapped (by decide) invariant'
      cases failed.symm.trans calculated
    | error fault' =>
      refine ⟨_, .failed foundable.swapped invariant', .failed _ _ fun alike => ?_⟩
      have caughtAlike := Curve.invariant_failAlike (by decide) amp alike fault fault' failed invariant'
      rw [ofFault_relabelled, ofFault_congr _ caughtAlike]
      rfl
  | @founded ramp minted reserves foundable isRamp invariant isA isB isSupply =>
    obtain ⟨minted', invariant'⟩ := Curve.exists_invariant_swapped (by decide) invariant
    have fits := Curve.invariant_fits (by decide) invariant'
    obtain ⟨supply, isSupply'⟩ := Amount.exists_val_eq (z := minted') (by omega) (by omega)
    have ending' : FoundEnding Curve.defaultCap policy amp reserveB reserveA
        (.ok ⟨ramp, minted', ⟨reserves.b, reserves.a, supply⟩⟩) :=
      .founded foundable.swapped isRamp invariant' isB isA isSupply'
    refine ⟨_, ending', .founded _ _ rfl rfl rfl ?_ ?_⟩
    · intro skewA skewB
      exact ⟨Curve.le_succ_of_swapped foundable.aNonzero skewA invariant invariant',
        Curve.le_succ_of_swapped foundable.bNonzero skewB invariant' invariant⟩
    · intro free
      cases ((free minted).mp invariant).symm.trans invariant'
      have sameSupply : supply = reserves.supply := Amount.ext (by omega)
      rw [sameSupply]
      rfl

theorem found_relabelled : MirrorsFounding amp reserveA reserveB
    (found Curve.defaultCap policy amp reserveA reserveB).outcome
    (found Curve.defaultCap policy amp reserveB reserveA).outcome := by
  have capPos : 1 ≤ Curve.defaultCap := by decide
  obtain ⟨x, ending⟩ := exists_foundEnding capPos policy amp reserveA reserveB
  obtain ⟨y, ending', mirrors⟩ := ending.relabelled
  rw [ending.outcome, ending'.outcome]
  exact mirrors

end Found

/-- If the assets are exchanged in a pool and in what is asked of it, they are exchanged in the quote
of a swap and of a withdrawal, in one asset or in both (if both are below their minimum, the other one
is refused first).  In the quotes of a deposit they are if it is in the ratio of the reserves or the
invariants that it solves do not depend on the order of the reserves.  Foundings mint the same if the
invariant does not depend on that order, and in any case numbers that differ by at most one if none of
the reserves is more than 19 times the other one.  Both fail alike in either order if the reserves are
told of alike. -/
theorem relabelling_mirrors (pool : Pool) (now : Int) :
    (∀ (amountIn minimum : Int) (direction : Direction),
      (swap Curve.defaultCap pool.relabelled now amountIn minimum direction.reverse).outcome =
        mirrored (Option.map Swap.relabelled)
          (swap Curve.defaultCap pool now amountIn minimum direction).outcome) ∧
    (∀ (burned minimum : Int) (base : Asset),
      (withdrawOne Curve.defaultCap pool.relabelled now burned minimum base.other).outcome =
        mirrored (Option.map OneWithdrawal.relabelled)
          (withdrawOne Curve.defaultCap pool now burned minimum base).outcome) ∧
    (∀ burned minimumA minimumB : Int,
      MirrorsWithdrawal pool burned minimumA minimumB
        (withdraw pool burned minimumA minimumB).outcome
        (withdraw pool.relabelled burned minimumB minimumA).outcome) ∧
    (∀ amountA amountB minimum : Int, UnorderedDeposit pool now amountA amountB →
      MirrorsDeposit pool amountA amountB
        (deposit Curve.defaultCap pool now amountA amountB minimum).outcome
        (deposit Curve.defaultCap pool.relabelled now amountB amountA minimum).outcome) ∧
    (∀ (policy : RampPolicy) (amp reserveA reserveB : Int),
      MirrorsFounding amp reserveA reserveB
        (found Curve.defaultCap policy amp reserveA reserveB).outcome
        (found Curve.defaultCap policy amp reserveB reserveA).outcome) :=
  ⟨fun _ _ _ => swap_relabelled, fun _ _ _ => withdrawOne_relabelled, fun _ _ _ => withdraw_relabelled,
    fun _ _ _ unordered => deposit_relabelled unordered, fun _ _ _ _ => found_relabelled⟩

def freeOnes : Pool := ⟨Pool.steady, .free, Pool.ones⟩

theorem orderFree_of_two_and_one : Curve.OrderFree Curve.defaultCap 1 2 1 := by
  have first : (Curve.invariant Curve.defaultCap (2 : Int) (1 : Int) (1 : Int)).outcome = .ok 3 := rfl
  have second : (Curve.invariant Curve.defaultCap (1 : Int) (2 : Int) (1 : Int)).outcome = .ok 3 := rfl
  intro d
  rw [first, second]

theorem unorderedDeposit_of_one : UnorderedDeposit freeOnes 0 1 0 := by
  refine fun _ => ⟨fun d => Iff.rfl, ?_, ?_⟩
  · exact orderFree_of_two_and_one
  · intro d0 d1 chargedA chargedB growth isChargedA isChargedB
    have isTwo : (Curve.invariant Curve.defaultCap (1 : Int) (1 : Int) (1 : Int)).outcome = .ok 2 := rfl
    have isThree : (Curve.invariant Curve.defaultCap (2 : Int) (1 : Int) (1 : Int)).outcome = .ok 3 := rfl
    cases isTwo.symm.trans growth.before
    cases isThree.symm.trans growth.after
    have freeA : Exchange.chargeImbalance .free 2 3 1 2 = .ok 2 := rfl
    have freeB : Exchange.chargeImbalance .free 2 3 1 1 = .ok 1 := rfl
    cases freeA.symm.trans isChargedA
    cases freeB.symm.trans isChargedB
    exact orderFree_of_two_and_one

/-- A pool of one unit of each asset mints one pool token for a unit of the first asset, and so it
does for one of the second. -/
theorem relabelling_mirrors_of_ones : UnorderedDeposit freeOnes 0 1 0 ∧
    (deposit Curve.defaultCap freeOnes.relabelled 0 0 1 0).outcome =
      .ok (some ⟨1, ⟨.one, ⟨2, by decide⟩, ⟨3, by decide⟩⟩⟩) := by
  have ⟨_, _, _, deposits, _⟩ := relabelling_mirrors freeOnes 0
  refine ⟨unorderedDeposit_of_one, ?_⟩
  rw [(deposits 1 0 0 unorderedDeposit_of_one).eq_mirrored (.inr (.inl (by decide)))]
  rfl

/-- The order of one and three units decides what is minted for them, both as a founding and, two of
the three, as a deposit to one unit of each asset. -/
theorem order_of_reserves_matters :
    (∃ q q', (found Curve.defaultCap {} 1 1 3).outcome = .ok q ∧
      (found Curve.defaultCap {} 1 3 1).outcome = .ok q' ∧ q.minted = 3 ∧ q'.minted = 4) ∧
    (∃ q q', (deposit Curve.defaultCap freeOnes 0 2 0 0).outcome = .ok (some q) ∧
      (deposit Curve.defaultCap freeOnes.relabelled 0 0 2 0).outcome = .ok (some q') ∧
      q.minted = 2 ∧ q'.minted = 1) :=
  ⟨⟨⟨Pool.steady, 3, ⟨.one, ⟨3, by decide⟩, ⟨3, by decide⟩⟩⟩,
      ⟨Pool.steady, 4, ⟨⟨3, by decide⟩, .one, ⟨4, by decide⟩⟩⟩, rfl, rfl, rfl, rfl⟩,
    ⟨⟨2, ⟨⟨3, by decide⟩, .one, ⟨4, by decide⟩⟩⟩, ⟨1, ⟨.one, ⟨3, by decide⟩, ⟨3, by decide⟩⟩⟩, rfl, rfl,
      rfl, rfl⟩⟩

end Quote

end PegPool
