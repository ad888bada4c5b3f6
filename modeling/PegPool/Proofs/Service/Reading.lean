import PegPool.Proofs.Quote
import PegPool.Proofs.Text.Decimal
import PegPool.Service.Response

/-!
# Reading values and fields

What can be said of a value that a reader took (`required_good` and its like), and what a reader makes
of a value that was written (`Reads`).
-/

namespace PegPool.Service

variable {α β : Type} {p : Place} {j : Json} {r : Record} {key : Key} {read : Reader α}

namespace Checked

theorem map_eq_good {f : α → β} {x : Checked α} {b : β} :
    f <$> x = good b ↔ ∃ a, x = good a ∧ f a = b := by
  constructor
  · intro mapped
    cases x with
    | good a =>
      cases mapped
      exact ⟨a, rfl, rfl⟩
    | bad issues => cases mapped
  · rintro ⟨a, rfl, rfl⟩
    rfl

theorem seq_eq_good {f : Checked (α → β)} {x : Checked α} {b : β} :
    f <*> x = good b ↔ ∃ g a, f = good g ∧ x = good a ∧ g a = b := by
  constructor
  · intro applied
    cases f with
    | good g => cases x with
      | good a =>
        cases applied
        exact ⟨g, a, rfl, rfl, rfl⟩
      | bad issues => cases applied
    | bad issues => cases applied
  · rintro ⟨g, a, rfl, rfl, rfl⟩
    rfl

theorem good_map (f : α → β) {x : Checked α} {a : α} (isValue : x = good a) : f <$> x = good (f a) :=
  map_eq_good.mpr ⟨a, isValue, rfl⟩

theorem good_seq {f : Checked (α → β)} {x : Checked α} {g : α → β} {a : α} (isFunction : f = good g)
    (isValue : x = good a) : f <*> x = good (g a) :=
  seq_eq_good.mpr ⟨g, a, isFunction, isValue, rfl⟩

theorem andThen_eq_good {x : Checked α} {f : α → Checked β} {b : β} :
    x.andThen f = good b ↔ ∃ a, x = good a ∧ f a = good b := by
  constructor
  · intro tested
    cases x with
    | good a => exact ⟨a, rfl, tested⟩
    | bad issues => cases tested
  · rintro ⟨a, rfl, tested⟩
    exact tested

end Checked

open Checked

/-! ## What was read -/

theorem body_members {title : String} {fields : Record → Checked α} {a : α}
    (good : body title fields p j = .good a) : ∃ members, j = .obj members ∧ fields ⟨p, members⟩ = .good a := by
  unfold body at good
  split at good
  · exact ⟨_, rfl, good⟩
  · cases good

theorem body_good {title : String} {fields : Record → Checked α} {a : α}
    (good : body title fields p j = .good a) : ∃ r, fields r = .good a := by
  obtain ⟨members, -, good⟩ := body_members good
  exact ⟨_, good⟩

theorem closedBody_good {title : String} {keys : List Key} {fields : Record → Checked α} {a : α}
    (good : closedBody title keys fields p j = .good a) : ∃ r, fields r = .good a := by
  obtain ⟨r, good⟩ := body_good good
  split at good
  · cases good
  · obtain ⟨_, _, isFunction, -, rfl⟩ := seq_eq_good.mp good
    obtain ⟨a, isValue, rfl⟩ := map_eq_good.mp isFunction
    exact ⟨r, isValue⟩

theorem required_found {a : α} (good : r.required key read = .good a) :
    ∃ k value, r.find? key = some (k, value) ∧ read (r.place.member k) value = .good a := by
  unfold Record.required at good
  split at good
  · exact ⟨_, _, ‹_›, good⟩
  · cases good

theorem required_good {a : α} (good : r.required key read = .good a) :
    ∃ place value, read place value = .good a := by
  obtain ⟨_, value, -, good⟩ := required_found good
  exact ⟨_, value, good⟩

theorem optional_good {a default : α} (good : r.optional key read default = .good a) :
    a = default ∨ ∃ place value, read place value = .good a := by
  unfold Record.optional at good
  split at good
  · exact .inr ⟨_, _, good⟩
  · cases good
    exact .inl rfl

theorem integerFrom_good {least z : Int} (good : integerFrom least p j = .good z) : least ≤ z := by
  obtain ⟨_, -, tested⟩ := andThen_eq_good.mp good
  split at tested
  · cases tested
  · cases tested
    omega

theorem integerBetween_good {least most z : Int} (good : integerBetween least most p j = .good z) :
    least ≤ z ∧ z ≤ most := by
  obtain ⟨_, fromLeast, tested⟩ := andThen_eq_good.mp good
  split at tested
  · cases tested
  · cases tested
    exact ⟨integerFrom_good fromLeast, by omega⟩

/-! ## What is written -/

/-- The value is read as `a`, wherever it stands. -/
def Reads (read : Reader α) (j : Json) (a : α) : Prop :=
  ∀ p, read p j = .good a

theorem Reads.required {k : String} {a : α} (reads : Reads read j a)
    (found : r.find? key = some (k, j)) : r.required key read = .good a := by
  rw [Record.required, found]
  exact reads _

theorem Reads.optional {k : String} {a default : α} (reads : Reads read j a)
    (found : r.find? key = some (k, j)) : r.optional key read default = .good a := by
  rw [Record.optional, found]
  exact reads _

theorem ofJson_toString {n : Nat} (fits : n < 2 ^ 64) :
    Amount.ofJson (.str (toString n)) = .ok ⟨n, fits⟩ := by
  have stored : Amount.ofNat? (n : Int).toNat = some ⟨n, fits⟩ := Amount.ofNat?_eq_some.mpr rfl
  rw [Amount.ofJson, Text.readNumeral_toString fits]
  dsimp only
  rw [Amount.ofShown, if_neg (by omega), stored]

theorem reads_amount (amount : Amount) : Reads Service.amount amount.toJson amount := by
  intro p
  rw [Service.amount, Amount.toJson, Amount.decimal, ofJson_toString amount.lt]

theorem reads_natural {n : Nat} (fits : n < 2 ^ 64) : Reads natural (naturalJson n) n := by
  intro p
  have reads := reads_amount ⟨n, fits⟩ p
  rw [natural]
  change ((amount p (Amount.toJson ⟨n, fits⟩)).map fun amount => amount.val) = .good n
  rw [reads]
  rfl

theorem reads_integerBetween {least most z : Int} (atLeast : least ≤ z) (atMost : z ≤ most) :
    Reads (integerBetween least most) (.int z) z := by
  intro p
  have fromLeast : integerFrom least p (.int z) = .good z := if_neg (by omega)
  rw [integerBetween, fromLeast]
  exact if_neg (by omega)

theorem reads_integerFrom {least z : Int} (atLeast : least ≤ z) :
    Reads (integerFrom least) (.int z) z :=
  fun _ => if_neg (by omega)

theorem reads_asset (asset : Asset) : Reads Service.asset (.str asset.label) asset := by
  intro p
  cases asset with
  | a => rfl
  | b => rfl

theorem reads_direction (direction : Direction) :
    Reads Service.direction (.str direction.label) direction := by
  intro p
  cases direction with
  | aToB => rfl
  | bToA => rfl

end PegPool.Service
