import ClassLocator.Proofs.MethodType.Walk.Calls
/-!
The walk over a signature follows the reader of signatures. From one list of type arguments to the next one
inside it there are six calls at most: for an array, for its element, for the element as a reference type, for
a class type, for the arguments of one of its parts and for their list. Two of them are for reference types.
-/

namespace ClassLocator.MethodType

open Text
open Reader (byte)

namespace Signature

variable {k : Context} {n : Nat} {head : Option UInt8}

section
variable (r : Reader (List TypeArgument))

def partNamed (name : String) : Reader ClassPart := do
  if ← Reader.sees '<' then return .mk name (← r)
  return .mk name []

def partAndNext (name : String) : Reader (ClassPart × Option String) := do
  let part ← partNamed r name
  let b ← Reader.next
  if b == byte ';' then return (part, none)
  if b == byte '.' then return (part, some (← Reader.identifier ['<', '.', ';']))
  throw (.unexpected b ((← Reader.position) - 1))

def partsNamed (fuel : Nat) (name : String) : Reader (ClassPart × List ClassPart) := do
  let part ← partNamed r name
  return (part, ← innerParts r fuel)

theorem partsNamed_succ (fuel : Nat) (name : String) :
    partsNamed r (fuel + 1) name = do
      match ← partAndNext r name with
      | (part, none) => return (part, [])
      | (part, some name) =>
        let (inner, more) ← partsNamed r fuel name
        return (part, inner :: more) := by
  simp only [partsNamed, partAndNext, innerParts, bind_assoc]
  congr 1
  funext part
  congr 1
  funext b
  split
  · simp
  split
  · simp [classPart, partNamed]
  · rfl

end

section
variable {arguments : Walk (List TypeArgument)} {r : Reader (List TypeArgument)}
  (ha : ∀ head, Follows k n head arguments r 1)
include ha

theorem follows_partTurn (name : String) :
    Follows k n head (partTurn arguments name) (partAndNext r name) 1 := by
  have hend : IsAscii ';' := by decide
  have hdot : IsAscii '.' := by decide
  have hpart : Follows k n head (partWalk arguments name) (partNamed r name) 0 :=
    follows_sees_bind (.ite _
      (fun _ => ((ha head).bind fun given _ => follows_pure (ClassPart.mk name given)).least_le (Nat.zero_le _))
      fun _ => follows_pure (ClassPart.mk name []))
  refine hpart.bind (b := 1) fun part head => follows_next_bind (fun c hc head => ?_) fun b hb => ?_
  · refine .ite _ (fun _ => follows_pure _) fun _ => .ite _ (fun _ => ?_) fun _ => follows_fail (bothFail _)
    have hnext : Follows k n head (do return (part, some (← Walk.identifier ['<', '.', ';'])))
        (do return (part, some (← Reader.identifier ['<', '.', ';']))) 1 :=
      (follows_identifier (by simp [IsAscii])).bind fun next _ => follows_pure (part, some next)
    exact hnext.least_le (Nat.zero_le _)
  · simp only [beq_byte_of_wide hb hend, beq_byte_of_wide hb hdot, Bool.false_eq_true, if_false]
    exact bothFail _

theorem follows_partsFrom {turns fuel : Nat} (ht : n ≤ turns) (hf : n ≤ fuel) (name : String) :
    Follows k n head (partsFrom arguments turns name) (partsNamed r fuel name) 1 := by
  induction n generalizing turns fuel name head with
  | zero => exact fun w _ hlt _ => absurd hlt (Nat.not_lt_zero _)
  | succ n ih =>
    obtain ⟨turns, rfl⟩ := Nat.exists_eq_add_of_le' ht
    obtain ⟨fuel, rfl⟩ := Nat.exists_eq_add_of_le' hf
    rw [show fuel + (n + 1) = fuel + n + 1 from rfl, partsNamed_succ]
    refine (follows_partTurn ha name).turn.bind_lt (b := 0) fun p head => ?_
    obtain ⟨part, next⟩ := p
    cases next with
    | none => exact follows_pure _
    | some name =>
      have hmore : Follows k n head (partsFrom arguments (turns + n) name)
          (partsNamed r (fuel + n) name) 1 :=
        ih (fun head => (ha head).of_le (Nat.le_succ n)) (by omega) (by omega) name
      exact (hmore.bind fun q _ => follows_pure (part, q.1 :: q.2)).least_le (Nat.zero_le _)

end

theorem ofClass_eq (r : Reader (List TypeArgument)) (fuel : Nat) :
    (do
      let outer ← classPart r
      return GenericType.ofClass outer (← innerParts r fuel)) = (do
      let name ← Reader.identifier ['<', '.', ';']
      let (outer, inner) ← partsNamed r fuel name
      return .ofClass outer inner) := by
  simp [classPart, partsNamed, partNamed]

theorem follows_angled {α : Type} {item : Walk α} {r : Reader α} (ht : n ≤ turns) (hf : n ≤ fuel)
    (hitem : ∀ head, Follows k n head item r 1) (e : Fault) :
    Follows k n head
      (do
        Walk.expect '<'
        let list ← Walk.untilStop '>' item turns
        Walk.expect '>'
        if list.isEmpty then Walk.fail e
        return list)
      (do
        Reader.expect '<'
        let list ← Reader.untilStop '>' r fuel
        Reader.expect '>'
        if list.isEmpty then throw e
        return list) 2 := by
  have hlist : ∀ (list : List α) head, Follows k n head
      (do
        if list.isEmpty then Walk.fail e
        return list)
      (do
        if list.isEmpty then throw e
        return list) 0 := fun list head =>
    .ite _ (fun _ => follows_fail (BothFail.bind (fun _ => ⟨e, rfl, rfl⟩) _ _)) fun _ => follows_pure list
  exact (follows_expect (by decide)).bind fun _ _ => (follows_untilStop ht hf hitem).bind fun list _ =>
    (follows_expect (by decide)).bind fun _ head => hlist list head

/-- At this depth there are so many calls active, and so many for reference types, beside those of the
levels above. The calls that are active and those that are still granted suffice together. -/
structure Within (k : Context) (depth references calls nesting : Nat) : Prop where
  level : k.depth = depth
  references : k.active.count .reference ≤ 2 * depth + references
  calls : k.active.length ≤ 6 * depth + calls
  granted : 6 * (maxArgumentDepth + 1) ≤ nesting + k.active.length

section
variable {α : Type} {x : Walk α} {r : Reader α} {depth references calls nesting least : Nat}

theorem Within.mono {references' calls' : Nat} (h : Within k depth references calls nesting)
    (hr : references ≤ references') (hc : calls ≤ calls') : Within k depth references' calls' nesting :=
  { h with references := by have := h.references; omega, calls := by have := h.calls; omega }

theorem Within.exists_nesting (h : Within k depth references calls nesting) (hc : calls ≤ 5) :
    ∃ more, nesting = more + 1 := by
  obtain ⟨hd, -, hl, hg⟩ := h
  have := k.shallow
  exact Nat.exists_eq_add_one_of_ne_zero (by omega)

theorem Within.calling {routine : Routine} (h : Within k depth references calls (nesting + 1))
    (hc : calls ≤ 4) (harguments : routine ≠ .arguments) (hreference : routine ≠ .reference)
    (hx : ∀ k', Within k' depth references (calls + 1) nesting → Follows k' n head x r least) :
    Follows k n head (Walk.calling routine x) r least := by
  have hcount : (routine :: k.active).count .reference = k.active.count .reference := by
    simp [hreference]
  obtain ⟨hd, hf, hl, hg⟩ := h
  have hshallow := k.shallow
  refine Follows.calling harguments (by rw [hcount]; exact k.few) (by omega) (hx _ ?_)
  exact ⟨hd, by simpa only [Context.enter, hcount] using hf, by simp [Context.enter]; omega,
    by simp [Context.enter]; omega⟩

theorem Within.calling_reference (h : Within k depth references calls (nesting + 1))
    (hr : references ≤ 1) (hc : calls ≤ 4)
    (hx : ∀ k', Within k' depth (references + 1) (calls + 1) nesting → Follows k' n head x r least) :
    Follows k n head (Walk.calling .reference x) r least := by
  obtain ⟨hd, hf, hl, hg⟩ := h
  have hshallow := k.shallow
  refine Follows.calling (by decide) (by simp; omega) (by omega) (hx _ ?_)
  exact ⟨hd, by simp [Context.enter]; omega, by simp [Context.enter]; omega,
    by simp [Context.enter]; omega⟩

end

variable {turns fuel nesting depth : Nat} {r : Reader (List TypeArgument)}

def ArgumentsFollow (n turns depth : Nat) (r : Reader (List TypeArgument)) : Prop :=
  ∀ (k : Context) (nesting : Nat) (head : Option UInt8), Within k depth 2 5 nesting →
    Follows k n head (argumentsWalk turns nesting) r 1

section
variable (ha : ArgumentsFollow n turns depth r) (ht : n ≤ turns) (hf : n ≤ fuel)
include ha ht hf

theorem follows_classTypeWalk (hk : Within k depth 2 4 nesting) :
    Follows k n head (classTypeWalk turns nesting) (do
      let outer ← classPart r
      return GenericType.ofClass outer (← innerParts r fuel)) 2 := by
  obtain ⟨nesting, rfl⟩ := hk.exists_nesting (by decide)
  rw [ofClass_eq]
  refine hk.calling (by decide) (by decide) (by decide) fun k' hk' => ?_
  exact (follows_identifier (by simp [IsAscii])).bind fun name _ =>
    (follows_partsFrom (fun head => ha k' nesting head hk') ht hf name).bind fun p _ =>
      follows_pure (GenericType.ofClass p.1 p.2)

/-- In front of no bracket, a call for a reference type passes on to a class type or reads a name. -/
theorem follows_elementWalk (hk : Within k depth 1 3 nesting) (hhead : head ≠ some (byte '[')) :
    Follows k n head (referenceWalk turns nesting) (elementType fuel r) 1 := by
  obtain ⟨nesting, rfl⟩ := hk.exists_nesting (by decide)
  have hL : IsAscii 'L' := by decide
  have hT : IsAscii 'T' := by decide
  refine hk.calling_reference (by decide) (by decide) fun k' hk' => Follows.walk_sees ?_
  rw [if_neg (by simpa using hhead)]
  refine follows_next_bind (fun c hc head => ?_) fun b hb => ?_
  · refine .ite _ (fun _ => ?_) fun _ => .ite _ (fun _ => ?_) fun _ => follows_fail (bothFail _)
    · exact (follows_classTypeWalk ha ht hf hk').least_le (Nat.zero_le _)
    · exact (follows_name GenericType.parameter).least_le (Nat.zero_le _)
  · simp only [beq_byte_of_wide hb hL, beq_byte_of_wide hb hT, Bool.false_eq_true, if_false]
    exact bothFail _

theorem follows_plainWalk (hk : Within k depth 1 2 nesting) (hhead : head ≠ some (byte '[')) :
    Follows k n head (typeWalk turns nesting) (plainType fuel r) 1 := by
  obtain ⟨nesting, rfl⟩ := hk.exists_nesting (by decide)
  refine hk.calling (by decide) (by decide) (by decide) fun k' hk' => ?_
  refine follows_sees_bind (follows_sees_bind (Follows.walk_sees ?_))
  rw [show (head == some (byte '[')) = false by simpa using hhead, Bool.or_false]
  refine .ite _ (fun _ => follows_elementWalk ha ht hf hk' hhead) fun _ => ?_
  refine follows_next_bind (fun c _ head => ?_) fun b hb => ?_
  · exact (follows_baseType _).bind fun t _ => follows_pure (GenericType.base t)
  · exact (bothFail_baseType hb).bind _ _

/-- The element of an array is no array, so that at most two calls for reference types are active between
one list of type arguments and the next. -/
theorem follows_referenceWalk (hk : Within k depth 0 1 nesting) :
    Follows k n head (referenceWalk turns nesting) (referenceType fuel r) 1 := by
  by_cases hhead : head = some (byte '[')
  · obtain ⟨nesting, rfl⟩ := hk.exists_nesting (by decide)
    subst hhead
    refine hk.calling_reference (by decide) (by decide) fun k' hk' => follows_sees_bind ?_
    refine follows_dimensions_bind fun count head hhead => ?_
    exact (follows_plainWalk ha ht hf hk' hhead).bind fun t _ => follows_pure (GenericType.array count t)
  · refine Follows.reader_sees ?_
    rw [if_neg (by simpa using hhead)]
    exact follows_elementWalk ha ht hf (hk.mono (by decide) (by decide)) hhead

theorem follows_typeWalk (hk : Within k depth 0 0 nesting) :
    Follows k n head (typeWalk turns nesting) (anyType fuel r) 1 := by
  refine Follows.reader_sees ?_
  by_cases hhead : head = some (byte '[')
  · obtain ⟨nesting, rfl⟩ := hk.exists_nesting (by decide)
    subst hhead
    refine hk.calling (by decide) (by decide) (by decide) fun k' hk' => ?_
    refine .walk_sees (.walk_sees (.walk_sees ?_))
    rw [if_pos (by simp), if_pos (by simp)]
    exact follows_referenceWalk ha ht hf hk'
  · rw [if_neg (by simpa using hhead)]
    exact follows_plainWalk ha ht hf (hk.mono (by decide) (by decide)) hhead

theorem follows_argumentWalk (hk : Within k depth 0 1 nesting) :
    Follows k n head (argumentWalk (referenceWalk turns nesting)) (typeArgument fuel r) 1 := by
  have hreference : ∀ head, Follows k n head (referenceWalk turns nesting) (referenceType fuel r) 1 :=
    fun _ => follows_referenceWalk ha ht hf hk
  have hmark : ∀ {c : Char}, IsAscii c → head = some (byte c) → ∀ f : GenericType → TypeArgument,
      Follows k n head (do let _ ← Walk.next; return f (← referenceWalk turns nesting))
        (do let _ ← Reader.next; return f (← referenceType fuel r)) 1 := by
    intro c hc hseen f
    subst hseen
    have h := (follows_next_ascii (k := k) (n := n) hc).bind fun _ head =>
      (hreference head).bind fun t _ => follows_pure (f t)
    exact h.least_le (Nat.le_add_left 1 1)
  refine follows_sees_bind (.ite _ (fun hseen => ?_) fun _ => ?_)
  · obtain rfl : head = some (byte '*') := by simpa using hseen
    exact (follows_next_ascii (by decide)).bind fun _ _ => follows_pure TypeArgument.any
  refine follows_sees_bind (.ite _ (fun hseen => ?_) fun _ => ?_)
  · exact hmark (c := '+') (by decide) (by simpa using hseen) _
  refine follows_sees_bind (.ite _ (fun hseen => ?_) fun _ => ?_)
  · exact hmark (c := '-') (by decide) (by simpa using hseen) _
  · exact (hreference head).bind fun t _ => follows_pure (TypeArgument.exactly t)

theorem follows_argumentListWalk (hk : Within k depth 0 0 nesting) :
    Follows k n head (argumentListWalk turns nesting) (do
      Reader.expect '<'
      let list ← Reader.untilStop '>' (typeArgument fuel r) fuel
      Reader.expect '>'
      if list.isEmpty then throw .noTypeArguments
      return list) 1 := by
  obtain ⟨nesting, rfl⟩ := hk.exists_nesting (by decide)
  refine hk.calling (by decide) (by decide) (by decide) fun k' hk' => ?_
  exact (follows_angled ht hf (fun _ => follows_argumentWalk ha ht hf hk') .noTypeArguments).least_le
    (Nat.le_succ 1)

end

theorem follows_argumentsWalk (ht : n ≤ turns) (hf : n ≤ fuel) (levels : Nat)
    (hl : levels ≤ maxArgumentDepth) :
    ArgumentsFollow n turns (maxArgumentDepth - levels) (typeArguments fuel levels) := by
  induction levels with
  | zero =>
    intro k nesting head hk
    obtain ⟨nesting, rfl⟩ := hk.exists_nesting (by decide)
    exact follows_tooDeep hk.level
  | succ levels ih =>
    intro k nesting head hk
    obtain ⟨nesting, rfl⟩ := hk.exists_nesting (by decide)
    obtain ⟨hd, hc, hs, hg⟩ := hk
    refine Follows.arguments (by omega) (by omega) ?_
    -- The two calls for reference types and the six calls in all are those of the level that ends here.
    refine follows_argumentListWalk (ih (by omega)) ht hf ⟨?_, ?_, ?_, ?_⟩
    · show k.depth + 1 = _
      omega
    all_goals
      simp [Context.descend]
      omega

section
variable (ht : n ≤ turns) (hf : n ≤ fuel) (hk : Within k 0 0 0 nesting)
include ht hf hk

theorem follows_boundWalk : Follows k n head (referenceWalk turns nesting) (bound fuel) 1 := by
  have ha := follows_argumentsWalk (n := n) ht hf maxArgumentDepth (Nat.le_refl _)
  rw [Nat.sub_self] at ha
  exact follows_referenceWalk ha ht hf (hk.mono (Nat.le_refl _) (by decide))

theorem follows_outerTypeWalk :
    Follows k n head (typeWalk turns nesting) (anyType fuel (outermostArguments fuel)) 1 := by
  have ha := follows_argumentsWalk (n := n) ht hf maxArgumentDepth (Nat.le_refl _)
  rw [Nat.sub_self] at ha
  exact follows_typeWalk ha ht hf hk

theorem follows_typeParameterWalk :
    Follows k n head (typeParameterWalk turns nesting) (typeParameter fuel) 2 := by
  have hbound : ∀ head, Follows k n head (referenceWalk turns nesting) (bound fuel) 1 := fun _ =>
    follows_boundWalk ht hf hk
  have hbounds : ∀ head, Follows k n head (Walk.eachAfter ':' (referenceWalk turns nesting) turns)
      (Reader.eachAfter ':' (bound fuel) fuel) 0 := fun _ => follows_eachAfter (by decide) ht hf hbound
  have hclass : ∀ name head, Follows k n head
      (do
        let classBound ←
          if (← Walk.sees ':') || (← Walk.sees '>') then pure none
          else some <$> referenceWalk turns nesting
        return (⟨name, classBound, ← Walk.eachAfter ':' (referenceWalk turns nesting) turns⟩ :
          TypeParameter))
      (do
        let classBound ←
          if (← Reader.sees ':') || (← Reader.sees '>') then pure none else some <$> bound fuel
        return ⟨name, classBound, ← Reader.eachAfter ':' (bound fuel) fuel⟩) 0 := by
    intro name head
    refine follows_sees_bind (follows_sees_bind (.ite _ (fun _ => ?_) fun _ => ?_))
    · exact (follows_pure none).bind fun o head => (hbounds head).bind fun list _ => follows_pure _
    · have h := ((hbound head).map some).bind fun o head => (hbounds head).bind fun list _ =>
        follows_pure (⟨name, o, list⟩ : TypeParameter)
      exact h.least_le (Nat.zero_le _)
  exact (follows_identifier (by simp [IsAscii])).bind fun name _ =>
    (follows_expect (by decide)).bind fun _ head => hclass name head

theorem follows_typeParameterListWalk :
    Follows k n head (typeParameterListWalk turns nesting) (typeParameterList fuel) 0 := by
  have hparameter : ∀ head, Follows k n head (typeParameterWalk turns nesting) (typeParameter fuel) 1 :=
    fun _ => (follows_typeParameterWalk ht hf hk).least_le (Nat.le_succ 1)
  refine follows_sees_bind (.ite _ (fun _ => ?_) fun _ => follows_pure [])
  exact (follows_angled ht hf hparameter _).least_le (Nat.zero_le 2)

theorem follows_walk : Follows k n head (walk turns nesting) (reader fuel) 3 := by
  have hbound : ∀ head, Follows k n head (referenceWalk turns nesting) (bound fuel) 1 := fun _ =>
    follows_boundWalk ht hf hk
  have htype : ∀ head, Follows k n head (typeWalk turns nesting)
      (anyType fuel (outermostArguments fuel)) 1 := fun _ => follows_outerTypeWalk ht hf hk
  exact (follows_typeParameterListWalk ht hf hk).bind fun declared _ =>
    (follows_expect (by decide)).bind fun _ _ =>
      (follows_untilStop ht hf htype).bind fun parameters _ =>
        (follows_expect (by decide)).bind fun _ _ =>
          (follows_orVoid htype).bind fun result _ =>
            (follows_eachAfter (by decide) ht hf hbound).bind fun thrown _ =>
              follows_finish.bind fun _ _ => follows_pure (⟨declared, parameters, result, thrown⟩ : Signature)

end

theorem within_start (text : List Char) (hn : 390 ≤ nesting) : Within (.start text) 0 0 0 nesting :=
  ⟨rfl, Nat.le_refl 0, Nat.le_refl 0, hn⟩

/-- A walk over a signature comes to what the reader comes to, and never stalls if it is granted one turn
more than the text has bytes, and 390 nested calls. At every moment the depth that it counts is the number
of active calls for type arguments, which is at most 64, and at most 130 calls for references are active.
When a call ends, in whatever way, the depth is what it was before. Each turn of a loop takes a byte. -/
theorem nesting_bounded (text : String) (moreTurns moreCalls : Nat) :
    let w := (walk (text.utf8ByteSize + 1 + moreTurns) (390 + moreCalls)).onText text
    w.outcome = read text ∧ .stalls ∉ w.footprints ∧
      (∀ m, .stands m ∈ w.footprints → m.depth = m.active.count .arguments ∧ m.depth ≤ 64 ∧
        m.active.count .reference ≤ 130 ∧ m.active.length < 390) ∧
      (∀ routine before after, .returns routine before after ∈ w.footprints → after = before) ∧
      ∀ start stop, .turns start stop ∈ w.footprints → start < stop := by
  intro w
  obtain ⟨hs, hread⟩ := sound_onText text fun _ => follows_walk
    (Nat.le_add_right (text.utf8ByteSize + 1) moreTurns) (Nat.le_refl _)
    (within_start text.toList (Nat.le_add_right 390 moreCalls))
  have hmodest := hs.modest
  refine ⟨hread, fun h => hmodest _ h, fun m hm => ?_, fun routine before after h => hmodest _ h,
    fun start stop h => hmodest _ h⟩
  obtain ⟨-, hb⟩ := hmodest _ hm
  exact ⟨hb.counted.symm, hb.shallow, hb.few, hb.short⟩

example : .returns .arguments 0 0 ∈ ((walk 11 390).onText "(La<*>;)V").footprints := by decide

end Signature

end ClassLocator.MethodType
