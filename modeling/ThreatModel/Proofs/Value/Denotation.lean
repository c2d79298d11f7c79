import ThreatModel.Proofs.Number.Order
import ThreatModel.Proofs.Value.Coherence

/-!
# Comparing data by what it denotes

An integer and a number with a fraction or an exponent may denote the same number. Two numbers are compared through
the doubles nearest to them, and numbers inside other data as they are held. Main statement: what this has to do with
the numbers that are denoted. Where doubles represent the numbers, and no number inside other data is held in two
ways, data is equal that denotes the same, and numbers are in the order of what they denote; elsewhere different
numbers may be equal, and data that denotes the same unequal.
-/

namespace ThreatModel

/-! ## What data denotes -/

namespace Json

/-- The number that data denotes, if it is a number. -/
def denoted? : Json → Option ℚ
  | int value => some value
  | double value => some value.value
  | _ => none

mutual
/-- The same data, numbers that denote the same being the same at any depth. -/
def Alike : Json → Json → Prop
  | null, null => True
  | truth left, truth right => left = right
  | text left, text right => left = right
  | array left, array right => AlikeItems left right
  | object left, object right => AlikeFields left right
  | left, right => ∃ number, left.denoted? = some number ∧ right.denoted? = some number

def AlikeItems : List Json → List Json → Prop
  | [], [] => True
  | left :: lefts, right :: rights => Alike left right ∧ AlikeItems lefts rights
  | _, _ => False

def AlikeFields : List (String × Json) → List (String × Json) → Prop
  | [], [] => True
  | (name, left) :: lefts, (name', right) :: rights =>
    name = name' ∧ Alike left right ∧ AlikeFields lefts rights
  | _, _ => False
end

mutual
/-- Nowhere in two pieces of data an integer stands opposite a double of the same value. -/
def Uniform : Json → Json → Prop
  | int left, double right => right.value ≠ left
  | double left, int right => left.value ≠ right
  | array left, array right => UniformItems left right
  | object left, object right => UniformFields left right
  | _, _ => True

def UniformItems : List Json → List Json → Prop
  | left :: lefts, right :: rights => Uniform left right ∧ UniformItems lefts rights
  | _, _ => True

def UniformFields : List (String × Json) → List (String × Json) → Prop
  | (_, left) :: lefts, (_, right) :: rights => Uniform left right ∧ UniformFields lefts rights
  | _, _ => True
end

/-! ## Numbers held in one way -/

mutual
/-- Data is held as the same exactly if it denotes the same and no number is held in two ways. -/
theorem same_iff {left right : Json} : left.same right = true ↔ left.Alike right ∧ left.Uniform right := by
  cases left with
  | array lefts =>
    cases right with
    | array rights =>
      rw [Json.same, Alike, Uniform]
      exact sameItems_iff
    | _ => simp [Json.same, Alike, denoted?]
  | object lefts =>
    cases right with
    | object rights =>
      rw [Json.same, Alike, Uniform]
      exact sameFields_iff
    | _ => simp [Json.same, Alike, denoted?]
  | double x =>
    cases right with
    | double y => simp [Json.same, Double.eqv, ← Double.value_eq_iff, Alike, Uniform, denoted?, eq_comm]
    | int n => simp [Json.same, Alike, Uniform, denoted?, eq_comm]
    | _ => simp [Json.same, Alike, denoted?]
  | int n => cases right <;> simp [Json.same, Alike, Uniform, denoted?, eq_comm]
  | _ => cases right <;> simp [Json.same, Alike, Uniform, denoted?]

theorem sameItems_iff {lefts rights : List Json} :
    sameItems lefts rights = true ↔ AlikeItems lefts rights ∧ UniformItems lefts rights := by
  cases lefts with
  | nil => cases rights <;> simp [sameItems, AlikeItems, UniformItems]
  | cons left lefts =>
    cases rights with
    | nil => simp [sameItems, AlikeItems]
    | cons right rights =>
      rw [sameItems, Bool.and_eq_true, same_iff, sameItems_iff, AlikeItems, UniformItems, and_and_and_comm]

theorem sameFields_iff {lefts rights : List (String × Json)} :
    sameFields lefts rights = true ↔ AlikeFields lefts rights ∧ UniformFields lefts rights := by
  cases lefts with
  | nil => cases rights <;> simp [sameFields, AlikeFields, UniformFields]
  | cons field lefts =>
    obtain ⟨name, left⟩ := field
    cases rights with
    | nil => simp [sameFields, AlikeFields]
    | cons other rights =>
      obtain ⟨name', right⟩ := other
      rw [sameFields, Bool.and_eq_true, Bool.and_eq_true, decide_eq_true_eq, same_iff, sameFields_iff, AlikeFields,
        UniformFields]
      tauto
end

/-- Numbers are alike if they denote the same. -/
theorem alike_numbers {left right : Json} {p q : ℚ} (first : left.denoted? = some p)
    (second : right.denoted? = some q) : left.Alike right ↔ p = q := by
  cases left with
  | int m | double x =>
    cases first
    cases right with
    | int n | double y =>
      cases second
      simp [Alike, denoted?, eq_comm]
    | _ => cases second
  | _ => cases first

/-- Comparison can tell by the data alone what it denotes: doubles represent two numbers, and inside other data no
number is held in two ways. -/
def Plain (left right : Json) : Prop :=
  match left.denoted?, right.denoted? with
  | some p, some q => Double.Represented p ∧ Double.Represented q
  | _, _ => left.Uniform right

end Json

/-! ## Comparison -/

namespace Value

variable {a b : Json} {p q : ℚ}

/-- A number is compared through the double nearest to what it denotes. -/
theorem exists_nearest (denotes : a.denoted? = some p) :
    ∃ x, jsonNumber? a = some x ∧ (json a).number? = some x ∧ x.rank = (Double.ofRat p).rank := by
  cases a with
  | int n =>
    cases denotes
    exact ⟨_, rfl, rfl, by rw [Double.ofInt_eq]⟩
  | double x =>
    cases denotes
    exact ⟨x, rfl, rfl, x.rank_ofRat_value.symm⟩
  | _ => cases denotes

theorem equal_numbers (left : a.denoted? = some p) (right : b.denoted? = some q) :
    equal (json a) (json b) = true ↔ (Double.ofRat p).rank = (Double.ofRat q).rank := by
  obtain ⟨x, foundX, -, rankX⟩ := exists_nearest left
  obtain ⟨y, foundY, -, rankY⟩ := exists_nearest right
  simp only [equal, foundX, foundY, Double.eqv, decide_eq_true_eq, rankX, rankY]

theorem less_numbers (left : a.denoted? = some p) (right : b.denoted? = some q) :
    (order? (json a) (json b)).any (accepts .lt) = true ↔ (Double.ofRat p).rank < (Double.ofRat q).rank := by
  obtain ⟨x, -, foundX, rankX⟩ := exists_nearest left
  obtain ⟨y, -, foundY, rankY⟩ := exists_nearest right
  have noText : ∀ s t, json a = json (.text s) → json b ≠ json (.text t) := by
    rintro s t same
    cases same
    cases left
  rw [order?_of_not_texts noText, foundX, foundY]
  show accepts .lt (Ord.compare x.rank y.rank) = true ↔ _
  rw [rankX, rankY, ← compare_lt_iff_lt]
  cases Ord.compare (Double.ofRat p).rank (Double.ofRat q).rank <;> decide

/-- Data that is not two numbers is compared as it is held. -/
theorem equal_others (other : a.denoted? = none ∨ b.denoted? = none) :
    equal (json a) (json b) = true ↔ a.Alike b ∧ a.Uniform b := by
  have held : equal (json a) (json b) = a.same b := by
    rcases other with none | none
    · cases a with
      | int n => cases none
      | double x => cases none
      | _ => rfl
    · cases b with
      | int n => cases none
      | double x => cases none
      | _ => cases a <;> rfl
  rw [held, Json.same_iff]

/-- Where data tells what it denotes, it is equal that denotes the same. -/
theorem equal_iff_alike (plain : a.Plain b) : equal (json a) (json b) = true ↔ a.Alike b := by
  unfold Json.Plain at plain
  split at plain
  · rename_i p q left right
    rw [equal_numbers left right, Double.rank_ofRat_eq_iff plain.1 plain.2, Json.alike_numbers left right]
  · rename_i apart
    have other : a.denoted? = none ∨ b.denoted? = none := by
      cases left : a.denoted? with
      | none => exact .inl rfl
      | some p =>
        cases right : b.denoted? with
        | none => exact .inr rfl
        | some q => exact (apart p q left right).elim
    rw [equal_others other]
    exact and_iff_left plain

theorem less_iff_lt (plain : a.Plain b) (left : a.denoted? = some p) (right : b.denoted? = some q) :
    (order? (json a) (json b)).any (accepts .lt) = true ↔ p < q := by
  simp only [Json.Plain, left, right] at plain
  rw [less_numbers left right, Double.rank_ofRat_lt_iff plain.1 plain.2]

/-- What comparisons of data have to do with what the data denotes. -/
structure ByValue (a b : Json) (holds : Comparator → Bool) : Prop where
  law : a.Plain b → (holds .eq = true ↔ a.Alike b)
  order : a.Plain b → ∀ p q, a.denoted? = some p → b.denoted? = some q → (holds .lt = true ↔ p < q)
  integers : ∀ m n : ℤ, a = .int m → b = .int n → m.natAbs ≤ 9007199254740992 → n.natAbs ≤ 9007199254740992 →
    (holds .eq = true ↔ m = n) ∧ (holds .lt = true ↔ m < n)
  /-- Of numbers the nearest doubles are compared. So numbers that denote the same are equal in any case, and one that
  is less denotes less. -/
  numbers : ∀ p q, a.denoted? = some p → b.denoted? = some q →
    (holds .eq = true ↔ (Double.ofRat p).value = (Double.ofRat q).value) ∧
    (holds .lt = true ↔ (Double.ofRat p).value < (Double.ofRat q).value) ∧
    (p = q → holds .eq = true) ∧ (holds .lt = true → p < q)
  /-- Other data is equal only if no number in it is held in two ways. -/
  others : a.denoted? = none ∨ b.denoted? = none → (holds .eq = true ↔ a.Alike b ∧ a.Uniform b)

/-- Comparisons of data are by value, whatever the data is held as, where doubles represent the numbers that are
compared and no number inside other data is held in two ways. -/
theorem comparisons_by_value (a b : Json) :
    ∃ holds, (∀ op, (json a).compare op (json b) = .ok (holds op)) ∧ ByValue a b holds := by
  refine ⟨fun op => compareScalar (json a) op (json b), compare_of_isSingle rfl rfl, ?_⟩
  simp only [@compareScalar_of_isSingle (json a) (json b) rfl rfl]
  refine ⟨equal_iff_alike, fun plain p q => less_iff_lt plain, ?_, ?_, equal_others⟩
  · rintro m n rfl rfl smallM smallN
    have plain : (Json.int m).Plain (.int n) :=
      ⟨Double.represented_of_natAbs_le smallM, Double.represented_of_natAbs_le smallN⟩
    rw [equal_iff_alike plain, less_iff_lt plain rfl rfl, Json.alike_numbers rfl rfl]
    exact ⟨Int.cast_inj, Int.cast_lt⟩
  · intro p q left right
    rw [equal_numbers left right, less_numbers left right, Double.value_eq_iff, Double.value_lt_iff]
    refine ⟨Iff.rfl, Iff.rfl, ?_, fun less => ?_⟩
    · rintro rfl
      rfl
    · by_contra notLess
      exact absurd (Double.rank_ofRat_mono (not_lt.mp notLess)) less.not_ge

/-- An object with an integer, a fraction and a zero of either sign. -/
def limits (negative : Bool) : Json :=
  .object [("bounds", .array [.int 9007199254740993, .double (.atPlace false 4602678819172646912)]),
    ("offset", .double (.atPlace negative 0))]

/-- The sign of zero makes no difference, and inside an object integers may be beyond those that doubles represent. -/
theorem comparisons_by_value_zeros :
    (limits true).Plain (limits false) ∧ (limits true).Alike (limits false) ∧
      (json (limits true)).compare .eq (json (limits false)) = .ok true ∧
      (json (.int (-9007199254740991))).compare .lt (json (.int 9007199254740992)) = .ok true := by
  obtain ⟨holds, answers, byValue⟩ := comparisons_by_value (limits true) (limits false)
  obtain ⟨holds', answers', byValue'⟩ := comparisons_by_value (.int (-9007199254740991)) (.int 9007199254740992)
  have plain : (limits true).Plain (limits false) := by
    simp [Json.Plain, Json.denoted?, limits, Json.Uniform, Json.UniformFields, Json.UniformItems]
  have equal : holds .eq = true := Except.ok.inj (answers .eq).symm
  have less : holds' .lt = true := (byValue'.integers _ _ rfl rfl (by decide) (by decide)).2.mpr (by decide)
  refine ⟨plain, (byValue.law plain).mp equal, ?_, ?_⟩
  · rw [answers, equal]
  · rw [answers', less]

/-- Two different integers are equal, and in no order, where the double nearest to both is the same; and objects that
denote the same are unequal where a number in them is held in two ways. -/
theorem equal_beyond_doubles :
    (json (.int 9007199254740993)).compare .eq (json (.int 9007199254740992)) = .ok true ∧
    ¬ (Json.int 9007199254740993).Alike (.int 9007199254740992) ∧
    (json (.int 9007199254740992)).compare .lt (json (.int 9007199254740993)) = .ok false ∧
    (9007199254740992 : ℚ) < 9007199254740993 ∧
    (json (.object [("port", .int 1)])).compare .eq (json (.object [("port", .double (.ofNat 1))])) = .ok false ∧
    (Json.object [("port", .int 1)]).Alike (.object [("port", .double (.ofNat 1))]) := by
  have one : (Double.ofNat 1).value = 1 := by
    have digits : (Double.ofNat 1).significand = 4503599627370496 := by decide +kernel
    have scale : (Double.ofNat 1).scale = -52 := by decide +kernel
    have sign : (Double.ofNat 1).negative = false := rfl
    norm_num [Double.value, Double.magnitude, digits, scale, sign]
  refine ⟨rfl, ?_, rfl, by norm_num, rfl, rfl, ?_, trivial⟩
  · rw [Json.alike_numbers rfl rfl]
    norm_num
  · rw [Json.alike_numbers rfl rfl, one]
    norm_num

end Value
end ThreatModel
