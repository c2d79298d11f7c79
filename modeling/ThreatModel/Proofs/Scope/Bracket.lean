import Mathlib.Data.List.Induction
import Mathlib.Data.List.Infix
import Mathlib.Data.List.Nodup
import ThreatModel.Evaluation
import ThreatModel.Proofs.Except
import ThreatModel.Proofs.Scope.Place

/-!
# Blocks that are opened and closed again

A guard opens a block, and closes the innermost block when it is dropped. Main statement: if the blocks around it
are never closed in between and all blocks inside it are, then the blocks are those from before, and have no new
bindings but those that were made in them by their numbers; and if numbers are used as they should be, those of
the guard's block and of the blocks inside it belong to no other block, before or after.
-/

namespace ThreatModel

/-- A binding that was made: the place of its block in the stack, counted from the outermost, the name and the
value. -/
structure Made where
  place : Nat
  name : String
  value : Value

/-- A frame with the bindings that were made at its place, the latest first. -/
def Frame.receive (frame : Frame) (place : Nat) (made : List Made) : Frame :=
  { frame with
    bindings := ((made.filter (·.place = place)).reverse.map fun one => (one.name, one.value)) ++ frame.bindings }

namespace Frame

@[simp] theorem receive_nil (frame : Frame) (place : Nat) : frame.receive place [] = frame := rfl

theorem receive_append (frame : Frame) (place : Nat) (first more : List Made) :
    frame.receive place (first ++ more) = (frame.receive place first).receive place more := by
  simp [receive]

theorem receive_here (frame : Frame) (place : Nat) (name : String) (value : Value) :
    frame.receive place [⟨place, name, value⟩] = frame.bind name value := by
  simp [receive, bind]

theorem receive_elsewhere {place other : Nat} (differ : other ≠ place) (frame : Frame) (name : String)
    (value : Value) : frame.receive place [⟨other, name, value⟩] = frame := by
  simp [receive, differ]

end Frame

namespace Scope

/-! ## Steps -/

/-- What is asked of the scope of an evaluation. -/
inductive Move
  | allocate
  /-- Opens a block of a given number. -/
  | enter (id : BlockId)
  /-- Opens a block with a number of its own. -/
  | enterNew
  | exit
  | clear
  | bind (text : String) (context : Context) (block : BlockId)
  | check (text : String) (kind : ExpressionKind)
  | validate (text : String)
  | evaluate (text : String) (context : Context) (block : BlockId)

/-- A move, or a guard with the steps inside its block. -/
inductive Step
  | move (move : Move)
  | guarded (inner : List Step)

mutual
/-- The moves of a step. A guard opens its block first, and closes the innermost block when it is dropped. -/
def Step.moves : Step → List Move
  | .move move => [move]
  | .guarded inner => .enterNew :: (movesOf inner ++ [.exit])

def movesOf : List Step → List Move
  | [] => []
  | step :: rest => step.moves ++ movesOf rest
end

/-- The scope after a move. A binding that fails leaves it as it is, and so does what only reads it. -/
def after (scope : Scope) : Move → Scope
  | .allocate => scope.allocate.2
  | .enter id => scope.push id
  | .enterNew => scope.enter.2
  | .exit => scope.leave
  | .clear => scope.clear
  | .bind text context block => match scope.bindVariable text context block with
    | .ok bound => bound
    | .error _ => scope
  | .check _ _ | .validate _ | .evaluate _ _ _ => scope

def run (scope : Scope) (moves : List Move) : Scope := moves.foldl after scope

/-- What is seen of some moves, each looked at in the scope that it meets. -/
def along (seen : Scope → Move → Option α) (scope : Scope) : List Move → List α
  | [] => []
  | move :: rest => (seen scope move).toList ++ along seen (scope.after move) rest

variable {scope : Scope}

theorem run_append (scope : Scope) (first more : List Move) :
    scope.run (first ++ more) = (scope.run first).run more :=
  List.foldl_append

theorem along_append (seen : Scope → Move → Option α) (scope : Scope) (first more : List Move) :
    along seen scope (first ++ more) = along seen scope first ++ along seen (scope.run first) more := by
  induction first generalizing scope with
  | nil => rfl
  | cons move rest ih =>
    rw [List.cons_append, along, along, ih, List.append_assoc]
    rfl

theorem run_guarded (scope : Scope) (inner : List Step) :
    scope.run (Step.guarded inner).moves = (scope.enter.2.run (movesOf inner)).leave := by
  rw [Step.moves, run, List.foldl_cons, List.foldl_append]
  rfl

/-! ## Bindings that are made -/

/-- The frame at a place in the stack, counted from the outermost. -/
def frameAt? (scope : Scope) (place : Nat) : Option Frame := scope.frames.reverse[place]?

/-- The place of the block that a number finds. -/
def placeOf? (scope : Scope) (block : BlockId) : Option Nat :=
  match scope.visible block with
  | [] => none
  | _ :: outer => some outer.length

/-- The binding that a move makes, if it makes one. -/
def made? (scope : Scope) : Move → Option Made
  | .bind text context block =>
    match Expression.parse text .binding with
    | .ok (.binding name source) =>
      match source.resolve scope context block, scope.placeOf? block with
      | .ok value, some place => some ⟨place, name, value⟩
      | _, _ => none
    | _ => none
  | _ => none

/-- A binding fails and is not made, or it is made in the block that its number finds. -/
theorem bind_cases (scope : Scope) (text : String) (context : Context) (block : BlockId) :
    (scope.made? (.bind text context block) = none ∧ scope.after (.bind text context block) = scope) ∨
      ∃ inner frame outer name value, scope.Finds block inner frame outer ∧
        scope.made? (.bind text context block) = some ⟨outer.length, name, value⟩ ∧
        scope.after (.bind text context block) =
          { scope with frames := inner ++ frame.bind name value :: outer } := by
  cases parsed : Expression.parse text .binding with
  | error fault => exact .inl (by simp [made?, after, bindVariable, parsed])
  | ok expression =>
    cases expression with
    | comparison left op right => exact .inl (by simp [made?, after, bindVariable, parsed])
    | binding name source =>
      cases resolved : source.resolve scope context block with
      | error fault => exact .inl (by simp [made?, after, bindVariable, parsed, resolved, bind, Except.bind])
      | ok value =>
        by_cases active : block ∈ scope.frames.map Frame.id
        · obtain ⟨inner, frame, outer, finds⟩ := exists_finds active
          refine .inr ⟨inner, frame, outer, name, value, finds, ?_, ?_⟩
          · simp [made?, parsed, resolved, placeOf?, finds.visible]
          · simp [after, bindVariable, parsed, resolved, bind, Except.bind, finds.register]
        · refine .inl ⟨?_, ?_⟩
          · simp [made?, parsed, resolved, placeOf?, visible_eq_nil.mpr active]
          · simp [after, bindVariable, parsed, resolved, bind, Except.bind, register_of_not_mem active]

/-! ## Places below all moves -/

theorem frameAt?_eq_none {place : Nat} : scope.frameAt? place = none ↔ scope.depth ≤ place := by
  simp [frameAt?, depth]

theorem getElem?_reverse_cons {frame : Frame} {frames : List Frame} {place : Nat} (low : place < frames.length) :
    (frame :: frames).reverse[place]? = frames.reverse[place]? := by
  rw [List.reverse_cons, List.getElem?_append_left (by simpa using low)]

theorem getElem?_reverse_split (inner outer : List Frame) (frame : Frame) (place : Nat) :
    (inner ++ frame :: outer).reverse[place]? =
      if place < outer.length then outer.reverse[place]?
      else if place = outer.length then some frame
      else inner.reverse[place - outer.length - 1]? := by
  have reversed : (inner ++ frame :: outer).reverse = outer.reverse ++ frame :: inner.reverse := by simp
  rw [reversed, List.getElem?_append, List.length_reverse]
  split
  · rfl
  · rename_i notOuter
    rw [List.getElem?_cons]
    by_cases here : place = outer.length
    · simp [here]
    · rw [if_neg here, if_neg (by omega)]

theorem frameAt?_leave {place : Nat} (low : place < scope.leave.depth) :
    scope.leave.frameAt? place = scope.frameAt? place := by
  obtain ⟨frames, allocated⟩ := scope
  cases frames with
  | nil => rfl
  | cons frame rest => exact (getElem?_reverse_cons low).symm

/-- A move changes the frame at a place only by the binding that it makes there, as long as the place is neither
opened nor closed. -/
theorem frameAt?_after {move : Move} {place : Nat} (before : place < scope.depth)
    (still : place < (scope.after move).depth) :
    (scope.after move).frameAt? place =
      (scope.frameAt? place).map (·.receive place (scope.made? move).toList) := by
  have unbound {frame? : Option Frame} : frame?.map (·.receive place []) = frame? := by
    simp only [Frame.receive_nil, Option.map_id']
  cases move with
  | allocate | check | validate | evaluate => exact unbound.symm
  | enter | enterNew => exact (getElem?_reverse_cons before).trans unbound.symm
  | exit => exact (frameAt?_leave still).trans unbound.symm
  | clear => exact absurd still (Nat.not_lt_zero place)
  | bind text context block =>
    rcases bind_cases scope text context block with
      ⟨nothing, same⟩ | ⟨inner, frame, outer, name, value, finds, made, bound⟩
    · simp [nothing, same]
    · rw [bound, made, frameAt?, frameAt?, finds.frames, getElem?_reverse_split, getElem?_reverse_split,
        Option.toList_some]
      by_cases here : place = outer.length
      · simp [here, Frame.receive_here]
      · have elsewhere (other : Frame) : other.receive place [⟨outer.length, name, value⟩] = other :=
          other.receive_elsewhere (Ne.symm here) name value
        simp [here, elsewhere]

/-- Moves that never go below some places change the frames there only by the bindings that they make. -/
theorem frameAt?_run {moves : List Move} {bound : Nat}
    (above : ∀ before, before <+: moves → bound ≤ (scope.run before).depth) {place : Nat} (low : place < bound) :
    (scope.run moves).frameAt? place =
      (scope.frameAt? place).map (·.receive place (along made? scope moves)) := by
  induction moves generalizing scope with
  | nil => simp [run, along]
  | cons move rest ih =>
    have first : bound ≤ scope.depth := above [] (List.nil_prefix)
    have second : bound ≤ (scope.after move).depth := above [move] (by simp)
    have others := ih fun before isPrefix => above (move :: before) (List.cons_prefix_cons.mpr ⟨rfl, isPrefix⟩)
    rw [run, List.foldl_cons, ← run, others, frameAt?_after (by omega) (by omega), Option.map_map, along]
    simp only [Frame.receive_append, Function.comp_def]

/-! ## Numbers -/

/-- The number that a move gives, for a block that it opens or for later. -/
def given? (scope : Scope) : Move → Option BlockId
  | .allocate => some scope.allocate.1
  | .enterNew => some scope.enter.1
  | _ => none

/-- The number of the block that a move opens. -/
def entered? (scope : Scope) : Move → Option BlockId
  | .enter id => some id
  | .enterNew => some scope.enter.1
  | _ => none

/-- Moves on a new scope use numbers as they should: a block is opened only with a number that was given, and that
no block has been opened with. -/
def Proper (moves : List Move) : Prop :=
  ∀ before id rest, moves = before ++ .enter id :: rest →
    id ∈ along given? .empty before ∧ id ∉ along entered? .empty before

instance (moves : List Move) : Decidable (Proper moves) :=
  decidable_of_iff (∀ before ∈ moves.inits, ∀ id ∈ (match moves.drop before.length with
      | .enter id :: _ => some id
      | _ => none),
      id ∈ along given? .empty before ∧ id ∉ along entered? .empty before) <| by
    constructor
    · rintro all before id rest rfl
      exact all before (List.mem_inits _ _ |>.mpr (List.prefix_append _ _)) id (by simp)
    · intro proper before member id opens
      obtain ⟨rest, rfl⟩ := (List.mem_inits _ _).mp member
      rw [List.drop_left] at opens
      split at opens
      · cases opens
        exact proper before id _ rfl
      · cases opens

theorem allocated_after (scope : Scope) (move : Move) :
    (scope.given? move = none ∧ (scope.after move).allocated = scope.allocated) ∨
      (scope.given? move = some ⟨scope.allocated + 1⟩ ∧ (scope.after move).allocated = scope.allocated + 1) := by
  cases move with
  | allocate => exact .inr ⟨rfl, rfl⟩
  | enterNew => exact .inr ⟨rfl, rfl⟩
  | bind text context block =>
    refine .inl ⟨rfl, ?_⟩
    rcases bind_cases scope text context block with ⟨-, same⟩ | ⟨_, _, _, _, _, -, -, bound⟩
    · rw [same]
    · rw [bound]
  | exit =>
    refine .inl ⟨rfl, ?_⟩
    simp only [after, leave, pop]
    split <;> rfl
  | _ => exact .inl ⟨rfl, rfl⟩

/-- The numbers that moves give are new, and counted. -/
theorem given_run (scope : Scope) (moves : List Move) :
    scope.allocated ≤ (scope.run moves).allocated ∧
      ∀ id ∈ along given? scope moves, scope.allocated < id.number ∧ id.number ≤ (scope.run moves).allocated := by
  induction moves generalizing scope with
  | nil => exact ⟨Nat.le_refl _, List.forall_mem_nil _⟩
  | cons move rest ih =>
    obtain ⟨grows, others⟩ := ih (scope.after move)
    rw [run, List.foldl_cons, ← run, along]
    rcases allocated_after scope move with ⟨nothing, same⟩ | ⟨number, next⟩
    · simp only [nothing, same, Option.toList_none, List.nil_append] at grows others ⊢
      exact ⟨grows, others⟩
    · simp only [number, next, Option.toList_some, List.singleton_append, List.forall_mem_cons] at grows others ⊢
      refine ⟨by omega, ⟨by omega, grows⟩, fun id member => ?_⟩
      obtain ⟨above, below⟩ := others id member
      exact ⟨by omega, below⟩

theorem active_after {move : Move} {id : BlockId} (active : id ∈ (scope.after move).frames.map Frame.id) :
    id ∈ scope.frames.map Frame.id ∨ scope.entered? move = some id := by
  cases move with
  | allocate | check | validate | evaluate => exact .inl active
  | enter | enterNew =>
    rcases List.mem_cons.mp active with rfl | outer
    · exact .inr rfl
    · exact .inl outer
  | exit =>
    simp only [after, leave, pop] at active
    split at active
    · exact .inl active
    · rename_i frames
      rw [frames]
      exact .inl (List.mem_cons_of_mem _ active)
  | clear => cases active
  | bind text context block =>
    rcases bind_cases scope text context block with ⟨-, same⟩ | ⟨inner, frame, outer, name, value, finds, -, bound⟩
    · exact .inl (same ▸ active)
    · rw [bound] at active
      rw [finds.frames]
      exact .inl (by simpa [Frame.bind] using active)

theorem active_run {moves : List Move} {id : BlockId} (active : id ∈ (scope.run moves).frames.map Frame.id) :
    id ∈ scope.frames.map Frame.id ∨ id ∈ along entered? scope moves := by
  induction moves generalizing scope with
  | nil => exact .inl active
  | cons move rest ih =>
    rw [along, List.mem_append, Option.mem_toList]
    rcases ih active with before | later
    · rcases active_after before with outer | opened
      · exact .inl outer
      · exact .inr (.inl opened)
    · exact .inr (.inr later)

theorem Proper.of_append {first more : List Move} (proper : Proper (first ++ more)) : Proper first := by
  intro before id rest split
  exact proper before id (rest ++ more) (by rw [split]; simp)

/-- Every block has a number of its own, which was given. -/
theorem Proper.entered {moves : List Move} (proper : Proper moves) :
    (along entered? .empty moves).Nodup ∧
      ∀ id ∈ along entered? .empty moves, id ∈ along given? .empty moves := by
  induction moves using List.reverseRecOn with
  | nil => exact ⟨.nil, List.forall_mem_nil _⟩
  | append_singleton before move ih =>
    obtain ⟨nodup, given⟩ := ih proper.of_append
    have last (seen : Scope → Move → Option BlockId) (scope : Scope) :
        along seen scope [move] = (seen scope move).toList := by simp [along]
    rw [along_append, along_append, last, last]
    have kept : ∀ id ∈ along entered? .empty before,
        id ∈ along given? .empty before ++ (given? (empty.run before) move).toList :=
      fun id member => List.mem_append_left _ (given id member)
    cases opened : entered? (empty.run before) move with
    | none => exact ⟨by simpa using nodup, by simpa using kept⟩
    | some id =>
      have new : id ∉ along entered? .empty before ∧
          id ∈ along given? .empty before ++ (given? (empty.run before) move).toList := by
        cases move with
        | enter number =>
          obtain rfl : number = id := Option.some.inj opened
          obtain ⟨was, unused⟩ := proper before number [] rfl
          exact ⟨unused, List.mem_append_left _ was⟩
        | enterNew =>
          obtain rfl : (empty.run before).enter.1 = id := Option.some.inj opened
          refine ⟨fun member => ?_, List.mem_append_right _ (by simp [given?])⟩
          -- What was given before has a smaller number.
          have old := ((given_run .empty before).2 _ (given _ member)).2
          exact Nat.not_succ_le_self _ old
        | _ => cases opened
      rw [Option.toList_some, List.nodup_append]
      refine ⟨⟨nodup, by simp, ?_⟩, ?_⟩
      · rintro other member _ (_ | ⟨_, ⟨⟩⟩) rfl
        exact new.1 member
      · exact List.forall_mem_append.mpr ⟨kept, List.forall_mem_singleton.mpr new.2⟩

/-- The numbers of the blocks that are opened in the course of some moves are no others' before or after. -/
theorem Proper.distinct {before middle later : List Move} (proper : Proper (before ++ (middle ++ later))) :
    (along entered? (Scope.empty.run before) middle).Nodup ∧
      ∀ id ∈ along entered? (Scope.empty.run before) middle,
        id ∉ along entered? .empty before ∧ id ∉ along entered? ((Scope.empty.run before).run middle) later := by
  have distinct := proper.entered.1
  rw [along_append, along_append, List.nodup_append'] at distinct
  obtain ⟨-, distinct, old⟩ := distinct
  obtain ⟨nodup, -, new⟩ := List.nodup_append'.mp distinct
  exact ⟨nodup, fun id member => ⟨fun earlier => old earlier (List.mem_append_left _ member), new member⟩⟩

/-! ## Guards -/

/-- What a guard that is opened in a scope wants of the steps inside it: they close neither its block nor one
around it, and they close all blocks that they open. -/
structure Balanced (scope : Scope) (inner : List Step) : Prop where
  above : ∀ before, before <+: movesOf inner → scope.depth + 1 ≤ (scope.enter.2.run before).depth
  back : (scope.enter.2.run (movesOf inner)).depth = scope.depth + 1

instance (scope : Scope) (inner : List Step) : Decidable (scope.Balanced inner) :=
  decidable_of_iff ((∀ before ∈ (movesOf inner).inits, scope.depth + 1 ≤ (scope.enter.2.run before).depth) ∧
      (scope.enter.2.run (movesOf inner)).depth = scope.depth + 1)
    ⟨fun ⟨above, back⟩ => ⟨fun before isPrefix => above before ((List.mem_inits _ _).mpr isPrefix), back⟩,
      fun ⟨above, back⟩ => ⟨fun before member => above before ((List.mem_inits _ _).mp member), back⟩⟩

variable {inner : List Step}

theorem Balanced.depth (balanced : scope.Balanced inner) :
    (scope.run (Step.guarded inner).moves).depth = scope.depth := by
  have back := balanced.back
  rw [run_guarded]
  unfold Scope.depth leave pop at *
  split <;> simp_all

/-- After a guard each frame is the one from before with the bindings that the steps inside the guard made in
it. -/
theorem Balanced.frameAt? (balanced : scope.Balanced inner) (place : Nat) :
    (scope.run (Step.guarded inner).moves).frameAt? place =
      (scope.frameAt? place).map (·.receive place (along made? scope.enter.2 (movesOf inner))) := by
  have depth := balanced.depth
  by_cases low : place < scope.depth
  · rw [run_guarded] at depth ⊢
    have outer : scope.enter.2.frameAt? place = scope.frameAt? place := getElem?_reverse_cons low
    rw [frameAt?_leave (by omega), frameAt?_run balanced.above (by omega), outer]
  · have none (other : Scope) (same : other.depth = scope.depth) : other.frameAt? place = none :=
      frameAt?_eq_none.mpr (by omega)
    rw [none _ depth, none _ rfl, Option.map_none]

theorem Balanced.ids (balanced : scope.Balanced inner) :
    (scope.run (Step.guarded inner).moves).frames.map Frame.id = scope.frames.map Frame.id := by
  apply List.reverse_injective
  rw [← List.map_reverse, ← List.map_reverse]
  refine List.ext_getElem? fun place => ?_
  have frame := balanced.frameAt? place
  simp only [Scope.frameAt?] at frame
  rw [List.getElem?_map, List.getElem?_map, frame, Option.map_map]
  rfl

def opened (scope : Scope) (inner : List Step) : List BlockId := along entered? scope (Step.guarded inner).moves

/-- Blocks that a guard opened are not open when it is closed, nor are they ever again. -/
theorem Balanced.inactive {before later : List Move} (balanced : (Scope.empty.run before).Balanced inner)
    (proper : Proper (before ++ ((Step.guarded inner).moves ++ later))) {id : BlockId}
    (member : id ∈ opened (Scope.empty.run before) inner) :
    id ∉ ((Scope.empty.run before).run ((Step.guarded inner).moves ++ later)).frames.map Frame.id := by
  obtain ⟨earlier, later⟩ := proper.distinct.2 id member
  rw [run_append]
  intro active
  rcases active_run active with around | reopened
  · rw [balanced.ids] at around
    rcases active_run around with nothing | before
    · exact List.not_mem_nil nothing
    · exact earlier before
  · exact later reopened

/-- When a guard is closed, its block and the blocks inside it are gone with all their bindings, and all others are
there as before, in the same order and with the same bindings but for those that were made in them by their numbers.
If numbers are used as they should be, those of the guard and of what is opened inside it are new and belong to one
block each, and after the guard they are unknown, whatever else is asked of the scope later. -/
theorem frames_guarded (balanced : scope.Balanced inner) :
    (scope.run (Step.guarded inner).moves).frames.map Frame.id = scope.frames.map Frame.id ∧
    (∀ place, (scope.run (Step.guarded inner).moves).frameAt? place =
      (scope.frameAt? place).map (·.receive place (along made? scope.enter.2 (movesOf inner)))) ∧
    ∀ before later, scope = Scope.empty.run before → Proper (before ++ ((Step.guarded inner).moves ++ later)) →
      scope.enter.1 ∈ opened scope inner ∧
      (∀ id ∈ along given? scope (Step.guarded inner).moves, id ∉ along given? .empty before) ∧
      (opened scope inner).Nodup ∧
      (∀ id ∈ opened scope inner, id ∉ along entered? .empty before) ∧
      ∀ id ∈ opened scope inner, ∀ name,
        (scope.run ((Step.guarded inner).moves ++ later)).resolve name id = .error (.unknownBlock id) ∧
        ∀ value, (scope.run ((Step.guarded inner).moves ++ later)).register name value id =
          .error (.unknownBlock id) := by
  refine ⟨balanced.ids, balanced.frameAt?, ?_⟩
  rintro before later rfl proper
  refine ⟨List.mem_cons_self, ?new, proper.distinct.1, fun id member => (proper.distinct.2 id member).1, ?gone⟩
  case new =>
    intro id member earlier
    have above := ((given_run _ _).2 id member).1
    have below := ((given_run _ _).2 id earlier).2
    omega
  case gone =>
    intro id member name
    have inactive := balanced.inactive proper member
    exact ⟨resolve_of_not_mem inactive name, register_of_not_mem inactive name⟩

def someone : Context :=
  let entity : Element := ⟨"e", ⟨.entity, "actor", none, []⟩, [], []⟩
  ⟨⟨[entity], by decide⟩, entity⟩

/-- One block is open and one number more is given. -/
def earlierMoves : List Move := [.allocate, .enter ⟨1⟩, .allocate]

/-- The number that was given is used, a guard stands inside the guard, and bindings are made in the block outside
and in three inside, of which the last fails. -/
def innerSteps : List Step :=
  [.move (.bind "1 = $A" someone ⟨1⟩), .move (.enter ⟨2⟩), .move (.bind "$A = $B" someone ⟨2⟩),
    .guarded [.move (.bind "$B = $B" someone ⟨4⟩), .move (.check "$A == 1" .design)], .move .exit,
    .move (.bind "$B = $C" someone ⟨3⟩)]

def laterMoves : List Move := [.clear, .enterNew]

/-- The block outside has the one binding that was made in it, and the numbers three, two and four are unknown from
then on. -/
theorem frames_guarded_nested :
    (Scope.empty.run earlierMoves).Balanced innerSteps ∧
    Proper (earlierMoves ++ ((Step.guarded innerSteps).moves ++ laterMoves)) ∧
    (((Scope.empty.run earlierMoves).run (Step.guarded innerSteps).moves).frameAt? 0).map
      (·.bindings.map Prod.fst) = some ["A"] ∧
    opened (Scope.empty.run earlierMoves) innerSteps = [⟨3⟩, ⟨2⟩, ⟨4⟩] ∧
    ((Scope.empty.run earlierMoves).run ((Step.guarded innerSteps).moves ++ laterMoves)).resolve "B" ⟨4⟩ =
      .error (.unknownBlock ⟨4⟩) := by
  have balanced : (Scope.empty.run earlierMoves).Balanced innerSteps := by decide +kernel
  have proper : Proper (earlierMoves ++ ((Step.guarded innerSteps).moves ++ laterMoves)) := by decide +kernel
  have opens : opened (Scope.empty.run earlierMoves) innerSteps = [⟨3⟩, ⟨2⟩, ⟨4⟩] := by decide +kernel
  obtain ⟨-, frames, numbers⟩ := frames_guarded balanced
  obtain ⟨-, -, -, -, gone⟩ := numbers earlierMoves laterMoves rfl proper
  exact ⟨balanced, proper, by rw [frames]; decide +kernel, opens, (gone ⟨4⟩ (by simp [opens]) "B").1⟩

end Scope
end ThreatModel
