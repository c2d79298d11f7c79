import ThreatModel.Proofs.Identity
import ThreatModel.Proofs.Text.Distance

/-!
# Suggestions

For a text that is none of some candidates the closest candidate is suggested, unless it is too far away. Distances
count characters, and capital letters make no difference. Main statement: which candidate is suggested, if any. How far
is too far is told from the bytes of the two texts, so beside letters of several bytes a candidate may be suggested that
shares no more than half of its characters with the text, or none at all.
-/

namespace ThreatModel.Text

/-- The number of edits between two texts in small letters. -/
def Apart (left right : String) (count : Nat) : Prop :=
  IsLeast (editCounts (lower left).toList (lower right).toList) count

/-- The least distance of a text to some candidates, and the first of them at that distance. -/
structure Closest (text : String) (candidates : List String) (candidate : String) (away : Nat) : Prop where
  least : IsLeast {count | ∃ other ∈ candidates, Apart text other count} away
  first : IsFirst candidates (Apart text · away) candidate

/-- A distance of at most half of the longer of two texts. -/
def Near (size : String → Nat) (text candidate : String) (away : Nat) : Prop :=
  away ≤ max (size text) (size candidate) / 2

instance (size : String → Nat) (text candidate : String) (away : Nat) : Decidable (Near size text candidate away) :=
  inferInstanceAs (Decidable (away ≤ max (size text) (size candidate) / 2))

/-- What is to be suggested for a text where texts are as long as `size` says: the closest candidate if it is near. -/
def Suggests (size : String → Nat) (text : String) (candidates : List String) : Option String → Prop
  | some candidate => ∃ away, Closest text candidates candidate away ∧ Near size text candidate away
  | none => ∀ candidate away, Closest text candidates candidate away → ¬ Near size text candidate away

variable {text candidate other : String} {candidates : List String} {away : Nat}

/-! ## The closest candidate -/

theorem apart_iff : Apart text candidate away ↔ looseDistance text candidate = away := by
  have least : Apart text candidate (looseDistance text candidate) :=
    isLeast_distance (lower text).toList (lower candidate).toList
  constructor
  · exact least.unique
  · rintro rfl
    exact least

/-- The candidates in front of the closest are further away, and those behind are no closer. -/
theorem closest_iff : Closest text candidates candidate away ↔ ∃ before after,
    candidates = before ++ candidate :: after ∧ looseDistance text candidate = away ∧
      (∀ other ∈ before, away < looseDistance text other) ∧ ∀ other ∈ after, away ≤ looseDistance text other := by
  constructor
  · rintro ⟨⟨-, bound⟩, before, after, rfl, same, others⟩
    have noCloser : ∀ other ∈ before ++ candidate :: after, away ≤ looseDistance text other :=
      fun other member => bound ⟨other, member, apart_iff.mpr rfl⟩
    refine ⟨before, after, rfl, apart_iff.mp same, fun other member => ?_, fun other member => ?_⟩
    · exact (noCloser other (List.mem_append_left _ member)).lt_of_ne fun equal =>
        others other member (apart_iff.mpr equal.symm)
    · exact noCloser other (List.mem_append_right _ (List.mem_cons_of_mem _ member))
  · rintro ⟨before, after, rfl, same, further, noCloser⟩
    refine ⟨⟨⟨candidate, by simp, apart_iff.mpr same⟩, ?_⟩, before, after, rfl, apart_iff.mpr same, ?_⟩
    · rintro count ⟨other, member, apart⟩
      cases apart_iff.mp apart
      rcases List.mem_append.mp member with front | back
      · exact (further other front).le
      · rcases List.mem_cons.mp back with rfl | back
        · exact same.ge
        · exact noCloser other back
    · intro other member apart
      exact (further other member).ne (apart_iff.mp apart).symm

theorem exists_nearest? (text candidate : String) (rest : List String) :
    ∃ found, nearest? text (candidate :: rest) = some found := by
  rw [nearest?]
  split
  · split
    · exact ⟨_, rfl⟩
    · exact ⟨_, rfl⟩
  · exact ⟨_, rfl⟩

/-- A later candidate is taken only if it is closer, so the first of the closest is found. -/
theorem closest_of_nearest? (found : nearest? text candidates = some (candidate, away)) :
    Closest text candidates candidate away := by
  induction candidates generalizing candidate away with
  | nil => cases found
  | cons here rest ih =>
    rw [nearest?] at found
    split at found
    · rename_i other there nearest
      have closest := ih nearest
      split at found
      · rename_i closer
        cases found
        obtain ⟨before, after, split, same, further, noCloser⟩ := closest_iff.mp closest
        exact closest_iff.mpr ⟨here :: before, after, congrArg (here :: ·) split, same,
          List.forall_mem_cons.mpr ⟨closer, further⟩, noCloser⟩
      · rename_i notCloser
        cases found
        refine closest_iff.mpr ⟨[], rest, rfl, rfl, List.forall_mem_nil _, fun third member => ?_⟩
        exact (not_lt.mp notCloser).trans (closest.least.2 ⟨third, member, apart_iff.mpr rfl⟩)
    · rename_i none
      cases found
      cases rest with
      | nil => exact closest_iff.mpr ⟨[], [], rfl, rfl, List.forall_mem_nil _, List.forall_mem_nil _⟩
      | cons next rest =>
        obtain ⟨found, some⟩ := exists_nearest? text next rest
        cases none.symm.trans some

theorem Closest.unique {there : Nat} (closest : Closest text candidates candidate away)
    (closest' : Closest text candidates other there) : candidate = other ∧ away = there := by
  have same : away = there := closest.least.unique closest'.least
  subst same
  exact ⟨closest.first.unique closest'.first, rfl⟩

theorem nearest?_eq_some : nearest? text candidates = some (candidate, away) ↔
    Closest text candidates candidate away := by
  refine ⟨closest_of_nearest?, fun closest => ?_⟩
  cases candidates with
  | nil =>
    obtain ⟨_, member, _⟩ := closest.least.1
    cases member
  | cons here rest =>
    obtain ⟨⟨other, there⟩, found⟩ := exists_nearest? text here rest
    obtain ⟨rfl, rfl⟩ := closest.unique (closest_of_nearest? found)
    exact found

/-! ## The candidate that is suggested -/

variable {size : String → Nat} {answer : Option String}

/-- Where one candidate is the closest, it is suggested or none is. -/
theorem Closest.suggests_iff (closest : Closest text candidates candidate away) :
    Suggests size text candidates answer ↔ answer = if Near size text candidate away then some candidate else none := by
  cases answer with
  | none =>
    constructor
    · intro far
      rw [if_neg (far candidate away closest)]
    · intro same other there closest' near
      obtain ⟨rfl, rfl⟩ := closest.unique closest'
      rw [if_pos near] at same
      cases same
  | some other =>
    constructor
    · rintro ⟨there, closest', near⟩
      obtain ⟨rfl, rfl⟩ := closest.unique closest'
      rw [if_pos near]
    · intro same
      split at same
      · rename_i near
        cases same
        exact ⟨away, closest, near⟩
      · cases same

theorem not_closest_nil : ¬ Closest text [] candidate away := by
  rintro ⟨⟨⟨_, member, _⟩, -⟩, -⟩
  cases member

/-- The closest candidate is suggested if its distance is at most half of the bytes of the longer text. -/
theorem suggestion?_iff :
    suggestion? text candidates = answer ↔ Suggests String.utf8ByteSize text candidates answer := by
  cases candidates with
  | nil =>
    cases answer with
    | none => exact iff_of_true rfl fun _ _ closest => absurd closest not_closest_nil
    | some other =>
      refine iff_of_false (Option.some_ne_none other).symm ?_
      rintro ⟨away, closest, -⟩
      exact not_closest_nil closest
  | cons here rest =>
    obtain ⟨⟨candidate, away⟩, found⟩ := exists_nearest? text here rest
    have suggested : suggestion? text (here :: rest) =
        if Near String.utf8ByteSize text candidate away then some candidate else none := by
      rw [suggestion?, found]
      rfl
    rw [(nearest?_eq_some.mp found).suggests_iff, suggested]
    exact eq_comm

/-! ## Bytes and characters -/

theorem utf8ByteSize_eq (text : String) : text.utf8ByteSize = byteLength text.toList := by
  have ofList : ∀ chars : List Char, (String.ofList chars).utf8ByteSize = byteLength chars := by
    intro chars
    induction chars with
    | nil => rfl
    | cons c rest ih =>
      have split : String.ofList (c :: rest) = String.singleton c ++ String.ofList rest := by
        rw [String.singleton_eq_ofList, ← String.ofList_append, List.singleton_append]
      rw [split, String.utf8ByteSize_append, String.utf8ByteSize_singleton, ih, byteLength]
  rw [← ofList, String.ofList_toList]

theorem length_le_byteLength (chars : List Char) : chars.length ≤ byteLength chars := by
  induction chars with
  | nil => exact Nat.le_refl 0
  | cons c rest ih =>
    have one := c.utf8Size_pos
    rw [List.length_cons, byteLength]
    omega

/-- What is near if characters are counted is near if bytes are. -/
theorem Near.bytes (near : Near String.length text candidate away) :
    Near String.utf8ByteSize text candidate away := by
  refine near.trans (Nat.div_le_div_right (max_le_max ?_ ?_))
  · rw [utf8ByteSize_eq, ← String.length_toList]
    exact length_le_byteLength text.toList
  · rw [utf8ByteSize_eq, ← String.length_toList]
    exact length_le_byteLength candidate.toList

theorem byteLength_of_ascii {chars : List Char} (ascii : ∀ c ∈ chars, c.toNat < 128) :
    byteLength chars = chars.length := by
  induction chars with
  | nil => rfl
  | cons c rest ih =>
    obtain ⟨here, others⟩ := List.forall_mem_cons.mp ascii
    have one : c.utf8Size = 1 := Char.utf8Size_eq_one_iff.mpr (Nat.le_of_lt_succ here)
    rw [byteLength, one, ih others, List.length_cons, Nat.add_comm]

theorem utf8ByteSize_of_ascii {word : String} (ascii : ∀ c ∈ word.toList, c.toNat < 128) :
    word.utf8ByteSize = word.length := by
  rw [utf8ByteSize_eq, byteLength_of_ascii ascii, String.length_toList]

theorem Closest.mem (closest : Closest text candidates candidate away) : candidate ∈ candidates := by
  obtain ⟨before, after, split, -, -⟩ := closest.first
  rw [split]
  exact List.mem_append_right _ List.mem_cons_self

/-- Bytes and characters suggest the same exactly if no distance is near for the former alone. -/
theorem suggestion?_length_iff :
    (∀ answer, suggestion? text candidates = answer ↔ Suggests String.length text candidates answer) ↔
      ∀ candidate away, Closest text candidates candidate away →
        Near String.utf8ByteSize text candidate away → Near String.length text candidate away := by
  constructor
  · intro law candidate away closest near
    have suggested := (law (some candidate)).mp (suggestion?_iff.mpr ⟨away, closest, near⟩)
    obtain ⟨there, closest', near'⟩ := suggested
    rwa [(closest.unique closest').2]
  · intro agree answer
    rw [suggestion?_iff]
    cases answer with
    | some candidate =>
      exact exists_congr fun away => and_congr_right fun closest => ⟨agree candidate away closest, Near.bytes⟩
    | none =>
      exact forall_congr' fun candidate => forall_congr' fun away => imp_congr_right fun closest =>
        not_congr ⟨agree candidate away closest, Near.bytes⟩

/-- The closest candidate is suggested if its distance is at most half of the bytes of the longer text, and otherwise
none is. That is what characters suggest exactly if no distance is within half of the bytes and beyond half of the
characters, and so wherever all characters have one byte. -/
theorem suggestion?_closest (text : String) (candidates : List String) :
    (∀ answer, suggestion? text candidates = answer ↔ Suggests String.utf8ByteSize text candidates answer) ∧
    ((∀ answer, suggestion? text candidates = answer ↔ Suggests String.length text candidates answer) ↔
      ∀ candidate away, Closest text candidates candidate away →
        Near String.utf8ByteSize text candidate away → Near String.length text candidate away) ∧
    ((∀ word ∈ text :: candidates, ∀ c ∈ word.toList, c.toNat < 128) →
      ∀ answer, suggestion? text candidates = answer ↔ Suggests String.length text candidates answer) := by
  refine ⟨fun answer => suggestion?_iff, suggestion?_length_iff, fun ascii => suggestion?_length_iff.mpr ?_⟩
  intro candidate away closest near
  have sizes := utf8ByteSize_of_ascii (ascii text List.mem_cons_self)
  have sizes' := utf8ByteSize_of_ascii (ascii candidate (List.mem_cons_of_mem text closest.mem))
  rwa [Near, sizes, sizes'] at near

/-- A letter was left out. -/
theorem suggestion?_closest_typo :
    suggestion? "snifing" ["spoofing-identity", "sniffing", "sql-injection"] = some "sniffing" ∧
      Suggests String.length "snifing" ["spoofing-identity", "sniffing", "sql-injection"] (some "sniffing") := by
  have found : suggestion? "snifing" ["spoofing-identity", "sniffing", "sql-injection"] = some "sniffing" := by
    decide +kernel
  obtain ⟨-, -, law⟩ := suggestion?_closest "snifing" ["spoofing-identity", "sniffing", "sql-injection"]
  have checked : ["snifing", "spoofing-identity", "sniffing", "sql-injection"].all
      (fun word => word.toList.all (·.toNat < 128)) = true := by
    decide +kernel
  refine ⟨found, (law (fun word member c inside => ?_) _).mp found⟩
  exact of_decide_eq_true (List.all_eq_true.mp (List.all_eq_true.mp checked word member) c inside)

/-- A candidate is suggested that shares no character with the text, because each letter of the text has two bytes. -/
theorem suggestion?_beyond_half :
    suggestion? "подделка" ["sniffing"] = some "sniffing" ∧ Closest "подделка" ["sniffing"] "sniffing" 8 ∧
      ¬ Near String.length "подделка" "sniffing" 8 ∧
      ¬ ∀ answer, suggestion? "подделка" ["sniffing"] = answer ↔ Suggests String.length "подделка" ["sniffing"] answer := by
  have found : suggestion? "подделка" ["sniffing"] = some "sniffing" := by decide +kernel
  have nearest : nearest? "подделка" ["sniffing"] = some ("sniffing", 8) := by decide +kernel
  have closest := nearest?_eq_some.mp nearest
  have far : ¬ Near String.length "подделка" "sniffing" 8 := by decide +kernel
  refine ⟨found, closest, far, fun law => ?_⟩
  have near : Near String.utf8ByteSize "подделка" "sniffing" 8 := by decide +kernel
  exact far (suggestion?_length_iff.mp law _ _ closest near)

end ThreatModel.Text
