import ClassLocator.Proofs.MethodType.Walk.Bytes

namespace ClassLocator.MethodType

open Text
open Reader (byte)

section
variable {α β : Type} {k : Context} {n : Nat} {head : Option UInt8} {x : Walk α} {r : Reader α}
  {least : Nat}

theorem Follows.turn (h : Follows k n head x r (least + 1)) :
    Follows k n head (Walk.turn x) r (least + 1) := by
  intro w hw hlt hh
  have hs := h w hw hlt hh
  cases ho : (x w).outcome with
  | error e =>
    have hx : Walk.turn x w = x w := by simp [Walk.turn, ho]
    rwa [hx]
  | ok a =>
    have hx : Walk.turn x w = { x w with
        footprints := (x w).footprints ++ [.turns w.position (x w).last.position] } := by
      simp [Walk.turn, ho]
    obtain ⟨hw', hle⟩ := hs.taken a ho
    have hp := hw.position_add
    have hp' := hw'.position_add
    rw [hx]
    exact
      { reader := hs.reader
        depth := hs.depth
        modest := by
          have hmoved : w.position < (x w).last.position := by omega
          exact List.forall_mem_append.mpr ⟨hs.modest, List.forall_mem_singleton.mpr hmoved⟩
        settled := by
          have hturns : Lawful k.text [.turns w.position (x w).last.position] := trivial
          exact Walked.settled_of_lawful ((hs.settled.lawful ho).append hturns)
        seen := by
          intro p hp hle
          obtain ⟨m, hm, he⟩ := hs.seen p hp hle
          exact ⟨m, List.mem_append_left _ hm, he⟩
        taken := hs.taken }

/-- When a call ends, in whatever way, the walker is back with its caller. -/
theorem Walked.Sound.leave {k' : Context} {w w' : Walker} {o : Walked α} (hs : o.Sound k' r least w')
    (htext : k'.text = k.text) (hw : k.Holds w) (hrest : w'.rest = w.rest)
    (hposition : w'.position = w.position) (routine : Routine) {depth : Nat} (hdepth : depth = w.depth) :
    Walked.Sound k r least w
      { outcome := o.outcome
        last := { o.last with depth, active := w.active }
        footprints := o.footprints ++ [.returns routine w.depth depth] } := by
  subst hdepth
  have hcursor : w'.cursor = w.cursor := by simp [Walker.cursor, hrest, hposition]
  have hsettled : o.Settled k.text := htext ▸ hs.settled
  exact
    { reader := by rw [← hcursor, hs.reader]; rfl
      depth := rfl
      modest := by
        have hmodest : ∀ f ∈ o.footprints, f.Modest (utf8 k.text).length := htext ▸ hs.modest
        exact List.forall_mem_append.mpr ⟨hmodest, List.forall_mem_singleton.mpr rfl⟩
      settled := by
        cases ho : o.outcome with
        | error e =>
          obtain ⟨front, back, hfb, hfront, hback, -⟩ := hsettled
          refine ⟨front, back ++ [.returns routine w.depth w.depth], by simp [hfb], hfront, ?_, ?_⟩
          · exact List.forall_mem_append.mpr ⟨hback, List.forall_mem_singleton.mpr trivial⟩
          · intro a ha
            cases ha
        | ok a =>
          have hreturns : Lawful k.text [.returns routine w.depth w.depth] := trivial
          exact Walked.settled_of_lawful ((hsettled.lawful ho).append hreturns)
      seen := by
        intro p hp hle
        obtain ⟨m, hm, he⟩ := hs.seen p (hposition ▸ hp) hle
        exact ⟨m, List.mem_append_left _ hm, he⟩
      taken := by
        intro a ha
        obtain ⟨hk, hle⟩ := hs.taken a ha
        obtain ⟨before, after, ht, hr, hp⟩ := hk.between
        exact ⟨⟨hw.depth, hw.active, before, after, htext ▸ ht, hr, hp⟩, hrest ▸ hle⟩ }

def Context.enter (k : Context) (routine : Routine) (hr : routine ≠ .arguments)
    (hf : (routine :: k.active).count .reference ≤ 2 * (maxArgumentDepth + 1))
    (hs : k.active.length + 1 < 6 * (maxArgumentDepth + 1)) : Context :=
  { k with active := routine :: k.active, counted := by simp [hr, k.counted], few := hf, short := hs }

def Context.descend (k : Context) (hd : k.depth < maxArgumentDepth)
    (hs : k.active.length + 1 < 6 * (maxArgumentDepth + 1)) : Context :=
  { k with
    depth := k.depth + 1
    active := .arguments :: k.active
    counted := by simp [k.counted]
    shallow := hd
    few := by simpa using k.few
    short := hs }

theorem Follows.calling {routine : Routine} (hr : routine ≠ .arguments)
    (hf : (routine :: k.active).count .reference ≤ 2 * (maxArgumentDepth + 1))
    (hs : k.active.length + 1 < 6 * (maxArgumentDepth + 1))
    (h : Follows (k.enter routine hr hf hs) n head x r least) :
    Follows k n head (Walk.calling routine x) r least := by
  intro w hw hlt hh
  have hin : (k.enter routine hr hf hs).Holds { w with active := routine :: w.active } :=
    ⟨hw.depth, congrArg (routine :: ·) hw.active, hw.between⟩
  have hs := h _ hin hlt hh
  exact hs.leave (k := k) rfl hw rfl rfl routine hs.depth

theorem Follows.arguments (hd : k.depth < maxArgumentDepth)
    (hs : k.active.length + 1 < 6 * (maxArgumentDepth + 1))
    (h : Follows (k.descend hd hs) n head x r least) :
    Follows k n head (Walk.calling .arguments (Walk.deeper x)) r least := by
  intro w hw hlt hh
  let below : Walker := { w with depth := w.depth + 1, active := .arguments :: w.active }
  have hin : (k.descend hd hs).Holds below :=
    ⟨congrArg (· + 1) hw.depth, congrArg (.arguments :: ·) hw.active, hw.between⟩
  have hs := h below hin hlt hh
  have hdepth : (x below).last.depth - 1 = w.depth := by rw [hs.depth]; rfl
  have hx : Walk.deeper x { w with active := .arguments :: w.active } =
      { x below with last := { (x below).last with depth := (x below).last.depth - 1 } } :=
    if_neg (by show ¬w.depth ≥ _; rw [hw.depth]; omega)
  have hcall := hs.leave (k := k) rfl hw rfl rfl .arguments hdepth
  simp only [Walk.calling, hx]
  exact hcall

theorem follows_tooDeep (hd : k.depth = maxArgumentDepth) :
    Follows k n head (Walk.calling .arguments (Walk.deeper x))
      (do throw (.argumentsTooDeep (← Reader.position))) least := by
  intro w hw _ _
  have hx : Walk.deeper x { w with active := .arguments :: w.active } =
      ⟨.error (.argumentsTooDeep w.position), { w with active := .arguments :: w.active }, []⟩ :=
    if_pos (by show w.depth ≥ _; rw [hw.depth]; omega)
  simp only [Walk.calling, hx]
  exact .fault rfl (List.forall_mem_singleton.mpr rfl) trivial

/-- Each turn takes a byte, so that the turns outlast the text. -/
theorem follows_untilStopAfter {stop : Char} {turns fuel : Nat} (ht : n ≤ turns) (hf : n ≤ fuel)
    (hx : ∀ head, Follows k n head x r 1) (before : List α) :
    Follows k n head (Walk.untilStopAfter stop x turns before)
      (Reader.untilStopAfter stop r fuel before) 0 := by
  induction n generalizing turns fuel before head with
  | zero => exact fun w _ hlt _ => absurd hlt (Nat.not_lt_zero _)
  | succ n ih =>
    obtain ⟨turns, rfl⟩ := Nat.exists_eq_add_of_le' ht
    obtain ⟨fuel, rfl⟩ := Nat.exists_eq_add_of_le' hf
    refine follows_sees_bind (.ite _ (fun _ => follows_pure _) fun _ => ?_)
    have hmore : ∀ a head, Follows k n head (Walk.untilStopAfter stop x (turns + n) (a :: before))
        (Reader.untilStopAfter stop r (fuel + n) (a :: before)) 0 := fun a head =>
      ih (by omega) (by omega) (fun head => (hx head).of_le (Nat.le_succ n)) (a :: before)
    exact ((hx head).turn.bind_lt hmore).least_le (Nat.zero_le _)

theorem follows_untilStop {stop : Char} {turns fuel : Nat} (ht : n ≤ turns) (hf : n ≤ fuel)
    (hx : ∀ head, Follows k n head x r 1) :
    Follows k n head (Walk.untilStop stop x turns) (Reader.untilStop stop r fuel) 0 :=
  follows_untilStopAfter ht hf hx []

theorem follows_eachAfterLead {lead : Char} (hc : IsAscii lead) {turns fuel : Nat} (ht : n ≤ turns)
    (hf : n ≤ fuel) (hx : ∀ head, Follows k n head x r 1) (before : List α) :
    Follows k n head (Walk.eachAfterLead lead x turns before)
      (Reader.eachAfterLead lead r fuel before) 0 := by
  induction n generalizing turns fuel before head with
  | zero => exact fun w _ hlt _ => absurd hlt (Nat.not_lt_zero _)
  | succ n ih =>
    obtain ⟨turns, rfl⟩ := Nat.exists_eq_add_of_le' ht
    obtain ⟨fuel, rfl⟩ := Nat.exists_eq_add_of_le' hf
    refine follows_sees_bind (.ite _ (fun hseen => ?_) fun _ => follows_pure _)
    obtain rfl : head = some (byte lead) := by simpa using hseen
    have hitem : Follows k (n + 1) (some (byte lead)) (do let _ ← Walk.next; x)
        (do let _ ← Reader.next; r) 2 :=
      (follows_next_ascii hc).bind fun _ head => hx head
    have hmore : ∀ a head, Follows k n head (Walk.eachAfterLead lead x (turns + n) (a :: before))
        (Reader.eachAfterLead lead r (fuel + n) (a :: before)) 0 := fun a head =>
      ih (by omega) (by omega) (fun head => (hx head).of_le (Nat.le_succ n)) (a :: before)
    have hturn := hitem.turn.bind_lt hmore
    rw [bind_assoc] at hturn
    exact hturn.least_le (Nat.zero_le _)

theorem follows_eachAfter {lead : Char} (hc : IsAscii lead) {turns fuel : Nat} (ht : n ≤ turns)
    (hf : n ≤ fuel) (hx : ∀ head, Follows k n head x r 1) :
    Follows k n head (Walk.eachAfter lead x turns) (Reader.eachAfter lead r fuel) 0 :=
  follows_eachAfterLead hc ht hf hx []

theorem follows_orVoid (hx : ∀ head, Follows k n head x r 1) :
    Follows k n head (Walk.orVoid x) (Reader.orVoid r) 1 := by
  refine follows_sees_bind (.ite _ (fun hseen => ?_) fun _ => ?_)
  · obtain rfl : head = some (byte 'V') := by simpa using hseen
    exact (follows_next_ascii (by decide)).bind fun _ _ => follows_pure none
  · exact (hx head).bind fun a _ => follows_pure (some a)

end

def Context.start (text : List Char) : Context where
  text := text
  depth := 0
  active := []
  counted := rfl
  shallow := Nat.zero_le _
  few := Nat.zero_le _
  short := Nat.zero_lt_succ _

theorem Context.start_holds (text : List Char) : (start text).Holds { rest := utf8 text } :=
  ⟨rfl, rfl, [], text, rfl, rfl, rfl⟩

theorem sound_onText {α : Type} (text : String) {x : Walk α} {reader : (fuel : Nat) → Reader α}
    {least : Nat} (h : ∀ head, Follows (.start text.toList) (text.utf8ByteSize + 1) head x
      (reader (text.utf8ByteSize + 1)) least) :
    (x.onText text).Sound (.start text.toList) (reader (text.utf8ByteSize + 1)) least
        { rest := utf8 text.toList } ∧
      (x.onText text).outcome = Reader.onText reader text := by
  have hsize : (utf8 text.toList).length = text.utf8ByteSize := by
    rw [length_utf8, String.ofList_toList]
  have hs := h _ _ (Context.start_holds text.toList) (Nat.lt_succ_of_le (Nat.le_of_eq hsize)) rfl
  refine ⟨hs, ?_⟩
  have hr : Reader.onText reader text =
      (reader ((utf8 text.toList).length + 1) (Walker.cursor { rest := utf8 text.toList })).map (·.1) := rfl
  rw [hr, hsize, hs.reader]
  show (x { rest := utf8 text.toList }).outcome = _
  cases (x { rest := utf8 text.toList }).outcome with
  | error e => rfl
  | ok a => rfl

end ClassLocator.MethodType
