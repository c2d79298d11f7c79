import ThreatModel.Proofs.Scope.Bracket
import ThreatModel.Proofs.Scope.Naming

/-!
# What a binding changes

Blocks may be opened with any numbers, and with one number several times. Main statement: a binding that is made in a
block is seen from the block and from those inside it, up to the first that binds the name itself; for every other
name and block nothing changes.
-/

namespace ThreatModel.Scope

variable {scope : Scope} {block seen : BlockId} {name : String}

/-- What one block binds a name to is what another sees: the other is inside it or the same, and no frame above
the one, up to the other's, binds the name. -/
def Exposed (scope : Scope) (block seen : BlockId) (name : String) : Prop :=
  ∃ low high, scope.placeOf? block = some low ∧ scope.placeOf? seen = some high ∧ low ≤ high ∧
    ∀ place frame, low < place → place ≤ high → scope.frameAt? place = some frame → frame.lookup? name = none

/-- The scope after a name was to be bound in a block. -/
def written (scope : Scope) (name : String) (value : Value) (block : BlockId) : Scope :=
  (scope.register name value block).toOption.getD scope

/-! ## Places -/

theorem visible_suffix (scope : Scope) (block : BlockId) : scope.visible block <:+ scope.frames :=
  List.dropWhile_suffix _

theorem placeOf?_eq_some {place : Nat} : scope.placeOf? block = some place ↔ (scope.visible block).length = place + 1 := by
  unfold placeOf?
  cases scope.visible block with
  | nil => simp
  | cons frame outer => simp

/-- What is seen from a block lies at the places up to its own. -/
theorem frameAt?_of_lt (block : BlockId) {place : Nat} (low : place < (scope.visible block).length) :
    scope.frameAt? place = (scope.visible block).reverse[place]? := by
  obtain ⟨nearer, split⟩ := scope.visible_suffix block
  rw [frameAt?, ← split, List.reverse_append, List.getElem?_append_left (by simpa using low)]

theorem exposed_iff_sees (active : block ∈ scope.frames.map Frame.id) :
    scope.Exposed block seen name ↔ scope.Sees seen block name := by
  constructor
  · rintro ⟨low, high, here, there, le, unhidden⟩
    rw [placeOf?_eq_some] at here there
    obtain ⟨between, split⟩ := List.suffix_of_suffix_length_le (scope.visible_suffix block)
      (scope.visible_suffix seen) (by omega)
    refine ⟨between, split.symm, fun frame member => ?_⟩
    obtain ⟨index, short, found⟩ := List.getElem_of_mem (List.mem_reverse.mpr member)
    have lengths := congrArg List.length split
    rw [List.length_append] at lengths
    rw [List.length_reverse] at short
    refine unhidden (low + 1 + index) frame (by omega) (by omega) ?_
    rw [frameAt?_of_lt seen (by omega), ← split, List.reverse_append,
      List.getElem?_append_right (by simp; omega), List.length_reverse, here]
    simp [found, short]
  · rintro ⟨between, split, unhidden⟩
    have opened : scope.visible block ≠ [] := fun nothing => visible_eq_nil.mp nothing active
    obtain ⟨low, here⟩ : ∃ low, (scope.visible block).length = low + 1 :=
      ⟨_, (Nat.succ_pred_eq_of_pos (List.length_pos_iff.mpr opened)).symm⟩
    have there : (scope.visible seen).length = between.length + low + 1 := by
      rw [split, List.length_append, here]
      omega
    refine ⟨low, between.length + low, placeOf?_eq_some.mpr here, placeOf?_eq_some.mpr there, by omega, ?_⟩
    intro place frame above below found
    rw [frameAt?_of_lt seen (by omega), split, List.reverse_append,
      List.getElem?_append_right (by simp; omega)] at found
    exact unhidden frame (List.mem_reverse.mp (List.mem_of_getElem? found))

/-! ## Other names and other blocks -/

variable {inner outer : List Frame} {frame : Frame} {value : Value}

theorem Finds.written (finds : scope.Finds block inner frame outer) :
    scope.written name value block = { scope with frames := inner ++ frame.bind name value :: outer } := by
  rw [Scope.written, finds.register]
  rfl

/-- From a block the frame that the binding changes is seen, or all is seen as before. -/
theorem Finds.visible_written (finds : scope.Finds block inner frame outer) (name : String) (value : Value)
    (seen : BlockId) :
    (∃ between, scope.visible seen = between ++ frame :: outer ∧
      (scope.written name value block).visible seen = between ++ frame.bind name value :: outer) ∨
    (scope.written name value block).visible seen = scope.visible seen := by
  rw [finds.written, Scope.visible, Scope.visible, finds.frames, List.dropWhile_append, List.dropWhile_append]
  split
  · rw [List.dropWhile_cons, List.dropWhile_cons]
    by_cases here : frame.id = seen
    · exact .inl ⟨[], by simp [here], by simp [Frame.bind, here]⟩
    · exact .inr (by simp [Frame.bind, here])
  · exact .inl ⟨_, rfl, rfl⟩

theorem resolve_congr {left right : Scope} (opened : left.visible seen = [] ↔ right.visible seen = [])
    (found : (left.visible seen).findSome? (·.lookup? name) = (right.visible seen).findSome? (·.lookup? name)) :
    left.resolve name seen = right.resolve name seen := by
  unfold resolve
  cases leftFrames : left.visible seen with
  | nil => rw [opened.mp leftFrames]
  | cons first rest =>
    cases rightFrames : right.visible seen with
    | nil => exact absurd (opened.mpr rightFrames) (by simp [leftFrames])
    | cons first' rest' => simp only [← leftFrames, ← rightFrames, found]

/-- A frame that binds the name itself, or another name that is looked up, hides the binding. -/
theorem findSome?_bind {other : String} {between : List Frame}
    (hidden : other ≠ name ∨ ∃ nearer ∈ between, nearer.lookup? name ≠ none) :
    (between ++ frame.bind name value :: outer).findSome? (·.lookup? other) =
      (between ++ frame :: outer).findSome? (·.lookup? other) := by
  rw [List.findSome?_append, List.findSome?_append]
  by_cases same : other = name
  · subst same
    obtain ⟨nearer, member, binds⟩ := hidden.resolve_left (not_not_intro rfl)
    have some : between.findSome? (·.lookup? other) ≠ none := fun none =>
      binds (List.findSome?_eq_none_iff.mp none nearer member)
    obtain ⟨first, found⟩ := Option.ne_none_iff_exists'.mp some
    rw [found, Option.some_or, Option.some_or]
  · have kept : (frame.bind name value).lookup? other = frame.lookup? other := by
      have differ : (other == name) = false := by simpa using same
      simp [Frame.lookup?, Frame.bind, List.lookup_cons, differ]
    rw [List.findSome?_cons, List.findSome?_cons, kept]

/-- A name that is bound in an open block has the value from every block to which the binding is exposed, other names
and other blocks have what they had, errors included, and the same blocks are open in the same order. In a block that
is not open nothing is bound, and the scope stays as it is. -/
theorem resolve_written (scope : Scope) (name : String) (value : Value) (block : BlockId) :
    (block ∈ scope.frames.map Frame.id →
      scope.register name value block = .ok (scope.written name value block) ∧
      (∀ other seen, other = name ∧ scope.Exposed block seen name →
        (scope.written name value block).resolve other seen = .ok value) ∧
      (∀ other seen, ¬ (other = name ∧ scope.Exposed block seen name) →
        (scope.written name value block).resolve other seen = scope.resolve other seen) ∧
      (scope.written name value block).frames.map Frame.id = scope.frames.map Frame.id ∧
      (scope.written name value block).depth = scope.depth) ∧
    (block ∉ scope.frames.map Frame.id →
      scope.register name value block = .error (.unknownBlock block) ∧ scope.written name value block = scope) := by
  constructor
  · intro active
    obtain ⟨inner, frame, outer, finds⟩ := exists_finds active
    refine ⟨?registered, ?exposed, ?others, ?ids, ?depth⟩
    case registered => rw [finds.written, finds.register]
    case exposed =>
      rintro other seen ⟨rfl, exposed⟩
      obtain ⟨after, registered, bound⟩ := resolve_bound active other value
      have same : scope.written other value block = after := by
        rw [Scope.written, registered]
        rfl
      exact same ▸ bound seen ((exposed_iff_sees active).mp exposed)
    case others =>
      intro other seen hidden
      rw [exposed_iff_sees active, Sees, finds.visible] at hidden
      -- Where the changed frame is seen at all, the name is another or a nearer frame has it.
      rcases finds.visible_written name value seen with ⟨between, before, now⟩ | same
      · refine resolve_congr (by simp [before, now]) ?_
        rw [before, now]
        refine findSome?_bind (Classical.or_iff_not_imp_left.mpr fun same => ?_)
        by_contra unhidden
        push Not at unhidden
        exact hidden ⟨not_not.mp same, between, before, unhidden⟩
      · exact resolve_congr (by rw [same]) (by rw [same])
    case ids => rw [finds.written, finds.frames]; simp [Frame.bind]
    case depth => rw [finds.written, depth, depth, finds.frames]; simp
  · intro inactive
    have failed := register_of_not_mem inactive name value
    refine ⟨failed, ?_⟩
    rw [Scope.written, failed]
    rfl

/-- The number one belongs to two blocks, and the block between them binds a name. -/
def repeated : Scope := ⟨[⟨⟨3⟩, []⟩, ⟨⟨1⟩, []⟩, ⟨⟨2⟩, [("A", .undefined)]⟩, ⟨⟨1⟩, []⟩], 3⟩

/-- A binding goes to the inner of the two blocks: it is seen from the block inside and not from the one between. -/
theorem resolve_written_repeated :
    (⟨1⟩ : BlockId) ∈ repeated.frames.map Frame.id ∧ repeated.Exposed ⟨1⟩ ⟨3⟩ "A" ∧
    (repeated.written "A" (.json .null) ⟨1⟩).resolve "A" ⟨3⟩ = .ok (.json .null) ∧
    ¬ repeated.Exposed ⟨1⟩ ⟨2⟩ "A" ∧
    (repeated.written "A" (.json .null) ⟨1⟩).resolve "A" ⟨2⟩ = .ok .undefined ∧
    (⟨4⟩ : BlockId) ∉ repeated.frames.map Frame.id ∧
    repeated.written "A" (.json .null) ⟨4⟩ = repeated := by
  have active : (⟨1⟩ : BlockId) ∈ repeated.frames.map Frame.id := by decide
  have inactive : (⟨4⟩ : BlockId) ∉ repeated.frames.map Frame.id := by decide
  have exposed : repeated.Exposed ⟨1⟩ ⟨3⟩ "A" := by
    refine ⟨2, 3, rfl, rfl, by decide, fun place frame above below found => ?_⟩
    obtain rfl : place = 3 := by omega
    cases found
    rfl
  have outside : ¬ repeated.Exposed ⟨1⟩ ⟨2⟩ "A" := by
    rintro ⟨low, high, here, there, le, -⟩
    cases here
    cases there
    exact absurd le (by decide)
  obtain ⟨-, bound, others, -⟩ := (resolve_written repeated "A" (.json .null) ⟨1⟩).1 active
  exact ⟨active, exposed, bound "A" ⟨3⟩ ⟨rfl, exposed⟩, outside, others "A" ⟨2⟩ fun both => outside both.2, inactive,
    ((resolve_written repeated "A" (.json .null) ⟨4⟩).2 inactive).2⟩

end ThreatModel.Scope
