import ThreatModel.Proofs.Expression.Parser
import ThreatModel.Proofs.Expression.Slicing

/-!
# Where a fault points

A fault that quotes a part of a text names the place where the part stands, and a fault of the order of the tokens the
place behind the tokens that are in order. Main statement: what a fault of an expression says of the text is so, no
cut of the text fails on the way to it, and a fault of the text itself is the same in both uses.
-/

namespace ThreatModel.Expression
open Token

/-! ## Places of tokens -/

/-- Blanks and the texts of tokens, each at its offset, in a text that starts at an offset. -/
inductive Placed : Nat → List Char → List Lexeme → Prop
  | nil {offset : Nat} {text : List Char} (blanks : Blanks text) : Placed offset text []
  | cons {offset : Nat} {before part rest : List Char} {token : Token} {more : List Lexeme} (blanks : Blanks before)
      (taken : TokenText part token)
      (others : Placed (offset + Text.byteLength before + Text.byteLength part) rest more) :
      Placed offset (before ++ (part ++ rest)) (⟨token, offset + Text.byteLength before⟩ :: more)

variable {text front rest : List Char} {offset : Nat} {before after lexemes : List Lexeme} {fault : ParseError}

theorem Placed.blank {c : Char} (blank : Text.isBlank c = true) (placed : Placed (offset + c.utf8Size) text lexemes) :
    Placed offset (c :: text) lexemes := by
  cases placed with
  | nil blanks => exact .nil (List.forall_mem_cons.mpr ⟨blank, blanks⟩)
  | cons blanks taken others =>
    rw [Nat.add_assoc offset] at others ⊢
    exact Placed.cons (List.forall_mem_cons.mpr ⟨blank, blanks⟩) taken others

/-- A token at the start of a text. -/
theorem Placed.token {part : List Char} {token : Token} (taken : TokenText part token)
    (others : Placed (offset + Text.byteLength part) rest lexemes) :
    Placed offset (part ++ rest) (⟨token, offset⟩ :: lexemes) :=
  .cons (List.forall_mem_nil _) taken others

theorem placed_of_scan (scanned : scan offset text = .ok lexemes) : Placed offset text lexemes := by
  fun_induction scan offset text generalizing lexemes with
  | case1 =>
    cases scanned
    exact .nil (by simp [Blanks])
  | case2 _ _ _ blank ih => exact (ih scanned).blank blank
  | case3 => cases scanned
  | case4 => cases scanned
  | case5 offset c rest plain token after found taken more scannedMore =>
    rename_i ih
    cases scanned
    obtain ⟨part, cut, spelled⟩ := next_sound found
    have same : taken = part := Sliced.take_of_append cut
    rw [cut]
    exact .token spelled (same ▸ ih scannedMore)

/-- The first of some tokens stands at the start of a text, which is empty if there are none. -/
def Starts (offset : Nat) (text : List Char) : List Lexeme → Prop
  | [] => text = []
  | next :: _ => next.offset = offset

/-- What is in front of a token holds the tokens before it, and what is behind starts with it; behind the last token
there is nothing. -/
theorem Placed.split (placed : Placed offset text (before ++ after)) :
    ∃ front back, text = front ++ back ∧ Placed offset front before ∧
      Placed (offset + Text.byteLength front) back after ∧ Starts (offset + Text.byteLength front) back after := by
  induction before generalizing offset text with
  | nil =>
    cases placed with
    | nil blanks => exact ⟨text, [], (List.append_nil text).symm, .nil blanks, .nil (List.forall_mem_nil _), rfl⟩
    | @cons _ front part rest token more blanks taken others =>
      exact ⟨front, part ++ rest, rfl, .nil blanks, .token taken others, rfl⟩
  | cons lexeme before ih =>
    cases placed with
    | @cons _ blank part rest token more blanks taken others =>
      obtain ⟨front, back, rfl, inFront, behind, starts⟩ := ih others
      have behindFront : offset + Text.byteLength blank + Text.byteLength part + Text.byteLength front =
          offset + Text.byteLength (blank ++ (part ++ front)) := by
        rw [Text.byteLength_append, Text.byteLength_append, Nat.add_assoc, Nat.add_assoc]
      refine ⟨blank ++ (part ++ front), back, by simp, .cons blanks taken inFront, ?_, ?_⟩
      · exact behindFront ▸ behind
      · exact behindFront ▸ starts

/-! ## What a fault says -/

/-- A part stands in a text at a byte offset. -/
def StandsAt (text part : List Char) (offset : Nat) : Prop :=
  Text.slice? text offset (offset + Text.byteLength part) = some part

/-- An offset behind some number of the tokens of a text, where the next token starts or the text ends. -/
def Behind (text : List Char) (count offset : Nat) : Prop :=
  ∃ front back before after, text = front ++ back ∧ Text.byteLength front = offset ∧
    scan 0 text = .ok (before ++ after) ∧ before.length = count ∧
    Placed 0 front before ∧ Placed offset back after ∧ Starts offset back after

/-- What a fault says of a text; of the faults of its use, nothing. -/
def Pinned (text : List Char) : ParseError → Prop
  | .empty => Blanks text
  | .unexpectedChar c offset => StandsAt text [c] offset
  | .unterminatedString offset => StandsAt text ['\''] offset
  | .invalidOperand word offset => word.toList ≠ [] ∧ StandsAt text word.toList offset
  | .invalidNumber word => word.toList ≠ [] ∧ ∃ offset, StandsAt text word.toList offset
  | .expectedOperand offset => Behind text 0 offset ∨ Behind text 2 offset
  | .expectedOperator offset => Behind text 1 offset
  | .trailingInput offset => Behind text 3 offset
  | .assignmentInDesign | .comparisonInBinding _ | .ambiguousBinding | .missingBindingTarget => True

theorem standsAt_append (front part rest : List Char) :
    StandsAt (front ++ (part ++ rest)) part (Text.byteLength front) :=
  Text.slice?_eq_some.mpr ⟨front, rest, rfl, rfl, rfl⟩

/-- A nonempty first part of what is left of a text makes an operand at fault. -/
theorem pinned_invalidOperand {word : List Char} (last : front ++ (word ++ rest) = text) (nonempty : word ≠ []) :
    Pinned text (.invalidOperand (String.ofList word) (Text.byteLength front)) := by
  subst last
  rw [Pinned, String.toList_ofList]
  exact ⟨nonempty, standsAt_append front word rest⟩

/-! ## Faults of a token -/

theorem pinned_invalid {c : Char} (front rest : List Char) (plain : endsOperand c = false) :
    Pinned (front ++ c :: rest) (invalid (Text.byteLength front) (c :: rest)) := by
  have whole : front ++ ((c :: rest).takeWhile (!endsOperand ·) ++ (c :: rest).dropWhile (!endsOperand ·)) =
      front ++ c :: rest := by
    rw [List.takeWhile_append_dropWhile]
  exact pinned_invalidOperand whole (by simp [plain])

theorem invalid_of_sigil (failed : sigil offset rest = .error fault) : fault = invalid offset ('$' :: rest) := by
  unfold sigil at failed
  split at failed
  · cases failed
    rfl
  split at failed
  · split at failed
    · cases failed
    · cases failed
      rfl
  split at failed
  · simp only at failed
    split at failed
    · split at failed
      · cases failed
      · cases failed
        rw [sigil.invalidPath, List.cons_append, List.takeWhile_append_dropWhile]
    · cases failed
      rfl
  · cases failed
    rfl

theorem invalid_of_word (failed : word offset rest = .error fault) : fault = invalid offset rest := by
  simp only [word] at failed
  split at failed
  · cases failed
  split at failed
  · cases failed
  split at failed
  · split at failed
    · cases failed
    · cases failed
      rfl
  · cases failed
    rfl

theorem fault_of_number (failed : number offset rest = .error fault) :
    fault = .invalidOperand (String.ofList ((numeral rest).1 ++ (numeral rest).2.takeWhile isIdent)) offset ∨
      fault = .invalidNumber (String.ofList (numeral rest).1) := by
  simp only [number] at failed
  split at failed
  · cases failed
    exact .inl rfl
  split at failed
  · cases failed
    exact .inr rfl
  split at failed
  · cases failed
  · cases failed
    exact .inr rfl

theorem fault_of_operator {c : Char} (failed : operator offset c rest = .error fault) :
    fault = .unexpectedChar c offset := by
  simp only [operator] at failed
  split at failed
  · cases failed
  · cases failed
    rfl

/-- A number takes at least the character that it starts with. -/
theorem numeral_ne_nil {c : Char} (start : (Decimal.isDigit c || (c = '-' && rest.head?.any Decimal.isDigit)) = true) :
    (numeral (c :: rest)).1 ≠ [] := by
  obtain ⟨negative, digits, same, first⟩ := numeral_start start
  rw [same, numeral_minus negative first]
  obtain ⟨d, head, digit⟩ := first
  obtain ⟨more, rfl⟩ := List.head?_eq_some_iff.mp head
  simp [isNumeral, digit]

theorem pinned_of_number {c : Char} (start : (Decimal.isDigit c || (c = '-' && rest.head?.any Decimal.isDigit)) = true)
    (failed : number (Text.byteLength front) (c :: rest) = .error fault) : Pinned (front ++ c :: rest) fault := by
  have nonempty := numeral_ne_nil start
  have cut := Sliced.numeral_append (c :: rest)
  rcases fault_of_number failed with rfl | rfl
  · have whole : front ++ (((numeral (c :: rest)).1 ++ (numeral (c :: rest)).2.takeWhile isIdent) ++
        (numeral (c :: rest)).2.dropWhile isIdent) = front ++ c :: rest := by
      rw [List.append_assoc, List.takeWhile_append_dropWhile, cut]
    exact pinned_invalidOperand whole (by simp [nonempty])
  · have stands := standsAt_append front (numeral (c :: rest)).1 (numeral (c :: rest)).2
    rw [cut] at stands
    rw [Pinned, String.toList_ofList]
    exact ⟨nonempty, _, stands⟩

/-- A fault of the token that comes next points to what is left of the text. -/
theorem pinned_of_next {c : Char} (failed : next (Text.byteLength front) c rest = .error fault) :
    Pinned (front ++ c :: rest) fault := by
  unfold next at failed
  split at failed
  · rename_i dollar
    subst dollar
    rw [invalid_of_sigil failed]
    exact pinned_invalid front rest (by decide)
  split at failed
  · rename_i quote
    subst quote
    split at failed
    · cases failed
    · cases failed
      exact standsAt_append front ['\''] rest
  split at failed
  · rename_i start
    exact pinned_of_number start failed
  split at failed
  · rename_i letter
    have ident : isIdent c = true := by
      simp only [Bool.or_eq_true] at letter
      simp only [isIdent, Bool.or_eq_true]
      tauto
    rw [invalid_of_word failed]
    exact pinned_invalid front rest (Sliced.not_endsOperand_of_isIdent ident)
  split at failed
  · rw [fault_of_operator failed]
    exact standsAt_append front [c] rest
  · cases failed
    exact standsAt_append front [c] rest

theorem pinned_of_scan (failed : scan (Text.byteLength front) rest = .error fault) :
    Pinned (front ++ rest) fault := by
  generalize place : Text.byteLength front = offset at failed
  fun_induction scan offset rest generalizing front with
  | case1 => cases failed
  | case2 offset c rest blank ih =>
    subst place
    have behind : Text.byteLength (front ++ [c]) = Text.byteLength front + c.utf8Size :=
      Text.byteLength_append front [c]
    rw [List.append_cons]
    exact ih behind failed
  | case3 offset c rest plain fault stopped =>
    subst place
    cases failed
    exact pinned_of_next stopped
  | case4 =>
    rename_i offset c rest plain token after found taken fault stopped ih
    subst place
    cases failed
    obtain ⟨part, cut⟩ := Sliced.next_suffix found
    have same : taken = part := Sliced.take_of_append cut.symm
    rw [← cut, ← List.append_assoc]
    exact ih (by rw [Text.byteLength_append, same]) stopped
  | case5 => cases failed

/-! ## Faults of the order of the tokens -/

theorem behind_of_scan (scanned : scan 0 text = .ok (before ++ after)) :
    Behind text before.length (offsetOf (Text.byteLength text) after) := by
  obtain ⟨front, back, rfl, inFront, behind, starts⟩ := (placed_of_scan scanned).split
  rw [Nat.zero_add] at behind starts
  have place : offsetOf (Text.byteLength (front ++ back)) after = Text.byteLength front := by
    cases after with
    | nil =>
      cases starts
      rw [List.append_nil, offsetOf]
    | cons next more => exact starts
  rw [place]
  exact ⟨front, back, before, after, rfl, rfl, scanned, rfl, inFront, behind, starts⟩

theorem fault_of_takeOperand {length : Nat} (failed : takeOperand length lexemes = .error fault) :
    fault = .expectedOperand (offsetOf length lexemes) := by
  unfold takeOperand at failed
  split at failed
  · cases failed
  · cases failed
    rfl

theorem fault_of_takeSign {length : Nat} (failed : takeSign length lexemes = .error fault) :
    fault = .expectedOperator (offsetOf length lexemes) := by
  unfold takeSign at failed
  split at failed
  · cases failed
  · cases failed
    rfl

theorem pinned_of_shape (scanned : scan 0 text = .ok lexemes)
    (failed : shape (Text.byteLength text) lexemes = .error fault) : Pinned text fault := by
  unfold shape at failed
  split at failed
  · rename_i empty
    cases failed
    cases List.isEmpty_iff.mp empty
    cases placed_of_scan scanned with
    | nil blanks => exact blanks
  rcases Except.bind_eq_error.mp failed with first | ⟨⟨left, others⟩, first, afterFirst⟩
  · rw [fault_of_takeOperand first]
    exact .inl (behind_of_scan (show scan 0 text = .ok ([] ++ lexemes) from scanned))
  obtain ⟨_, rfl⟩ := takeOperand_iff.mp first
  rcases Except.bind_eq_error.mp afterFirst with second | ⟨⟨sign, others⟩, second, afterSecond⟩
  · rw [fault_of_takeSign second]
    exact behind_of_scan (show scan 0 text = .ok ([_] ++ _) from scanned)
  obtain ⟨_, rfl⟩ := takeSign_iff.mp second
  rcases Except.bind_eq_error.mp afterSecond with third | ⟨⟨right, others⟩, third, afterThird⟩
  · rw [fault_of_takeOperand third]
    exact .inr (behind_of_scan (show scan 0 text = .ok ([_, _] ++ _) from scanned))
  obtain ⟨_, rfl⟩ := takeOperand_iff.mp third
  by_cases empty : others.isEmpty = true
  · simp only [if_pos empty] at afterThird
    cases afterThird
  · simp only [if_neg empty] at afterThird
    cases afterThird
    exact behind_of_scan (show scan 0 text = .ok ([_, _, _] ++ _) from scanned)

/-! ## Faults of an expression -/

/-- If two operands and a sign are there, only the use of them is at fault. -/
theorem isStructural_of_ofShape {kind : ExpressionKind} {left right : Operand} {sign : Sign}
    (failed : ofShape kind left sign right = .error fault) : fault.isStructural = false := by
  unfold ofShape bind at failed
  split at failed
  · cases failed
    rfl
  · cases failed
  · split at failed
    all_goals
      cases failed
      try rfl
  · cases failed
    rfl

theorem pinned_of_use (use : fault.isStructural = false) : Pinned text fault := by
  cases fault with
  | assignmentInDesign => trivial
  | comparisonInBinding => trivial
  | ambiguousBinding => trivial
  | missingBindingTarget => trivial
  | _ => cases use

/-- No cut of a text fails on the way to a fault, what the fault says of the text is so, and both uses of the text
have it unless it is a fault of the use. -/
theorem faults_pinned {text : String} {kind : ExpressionKind} {fault : ParseError}
    (failed : parse text kind = .error fault) :
    Sliced.scan? text.toList 0 text.toList = some (scan 0 text.toList) ∧ Pinned text.toList fault ∧
      (fault.isStructural = true → ∀ other, parse text other = .error fault) := by
  refine ⟨?_, ?_⟩
  · have start : (Text.cursor text.toList text.toList).offset = 0 := Nat.sub_self _
    have whole := Sliced.scan?_eq (List.suffix_refl text.toList)
    rwa [start] at whole
  rcases Except.bind_eq_error.mp failed with lexical | ⟨lexemes, scanned, afterScan⟩
  · have pinned : Pinned ([] ++ text.toList) fault := pinned_of_scan lexical
    exact ⟨pinned, fun _ other => Except.bind_eq_error.mpr (.inl lexical)⟩
  rcases Except.bind_eq_error.mp afterScan with disordered | ⟨⟨left, sign, right⟩, shaped, misused⟩
  · exact ⟨pinned_of_shape scanned disordered,
      fun _ other => Except.bind_eq_error.mpr (.inr ⟨lexemes, scanned, Except.bind_eq_error.mpr (.inl disordered)⟩)⟩
  · have use := isStructural_of_ofShape misused
    refine ⟨pinned_of_use use, fun structural => ?_⟩
    rw [use] at structural
    cases structural

/-- Letters of two bytes stand before and in the operand at fault. -/
theorem faults_pinned_accented :
    parse "'é' == $.ö" .design = .error (.invalidOperand "$.ö" 8) ∧
      Sliced.scan? "'é' == $.ö".toList 0 "'é' == $.ö".toList = some (scan 0 "'é' == $.ö".toList) ∧
      Pinned "'é' == $.ö".toList (.invalidOperand "$.ö" 8) ∧
      (ParseError.isStructural (.invalidOperand "$.ö" 8) = true →
        ∀ other, parse "'é' == $.ö" other = .error (.invalidOperand "$.ö" 8)) := by
  have failed : parse "'é' == $.ö" .design = .error (.invalidOperand "$.ö" 8) := by decide +kernel
  exact ⟨failed, faults_pinned failed⟩

end ThreatModel.Expression
