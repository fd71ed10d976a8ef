import ClassLocator.Proofs.MethodType.Walk.Follows

namespace ClassLocator.MethodType

open Text
open Reader (byte)

theorem Context.Holds.advance {k : Context} {w : Walker} (h : k.Holds w) {before mid after : List Char}
    (ht : k.text = before ++ (mid ++ after)) (hr : w.rest = utf8 (mid ++ after))
    (hp : w.position = (utf8 before).length) : k.Holds (w.advance (utf8 mid).length) where
  depth := h.depth
  active := h.active
  between := by
    refine ⟨before ++ mid, after, by simp [ht], ?_, ?_⟩
    · simp [Walker.advance, hr, utf8]
    · simp [Walker.advance, hp, utf8]

theorem exists_ascii {b : UInt8} (hb : b.toNat < 128) : ∃ c, IsAscii c ∧ byte c = b := by
  have hv : (b.toNat).isValidChar := by left; omega
  have hc : IsAscii (Char.ofNat b.toNat) := by rw [IsAscii, toNat_ofNat hv]; exact hb
  refine ⟨Char.ofNat b.toNat, hc, UInt8.toNat_inj.mp ?_⟩
  rw [byte_toNat hc, toNat_ofNat hv]

theorem Context.Holds.ascii {k : Context} {w : Walker} (h : k.Holds w) {c : Char} (hc : IsAscii c)
    (hh : w.rest.head? = some (byte c)) :
    w.rest = byte c :: (w.advance 1).rest ∧ k.Holds (w.advance 1) := by
  obtain ⟨before, after, ht, hr, hp⟩ := h.between
  rw [hr] at hh
  obtain ⟨after, rfl⟩ := List.head?_eq_some_iff.mp ((head?_utf8 hc after).mp hh)
  have hadv : k.Holds (w.advance (utf8 [c]).length) := h.advance ht hr hp
  simp only [utf8_cons, utf8_nil, utf8EncodeChar_ascii hc, List.append_nil, List.length_singleton] at hadv
  refine ⟨?_, hadv⟩
  simp [Walker.advance, hr, utf8EncodeChar_ascii hc]

section
variable {α β : Type} {k : Context} {n : Nat} {head : Option UInt8}

theorem follows_next_nil : Follows k n none Walk.next Reader.next 1 := by
  intro w hw _ hh
  have hr : w.rest = [] := List.head?_eq_none_iff.mp hh
  have hx : Walk.next w = ⟨.error .unexpectedEnd, w, [.stands w.moment]⟩ := by simp [Walk.next, hr]
  have hreader : Reader.next w.cursor = .error .unexpectedEnd := by
    simp [Reader.next, Walker.cursor, hr]
  rw [hx]
  exact .fault hreader (List.forall_mem_singleton.mpr hw.modest) ⟨.inl hw.divides, trivial⟩

theorem next_of_cons {w : Walker} {b : UInt8} {rest : List UInt8} (hr : w.rest = b :: rest) :
    Walk.next w = ⟨.ok b, w.advance 1, [.stands w.moment, .stands (w.advance 1).moment]⟩ := by
  unfold Walk.next
  rw [hr]

theorem reader_next_of_cons {w : Walker} {b : UInt8} {rest : List UInt8} (hr : w.rest = b :: rest) :
    Reader.next w.cursor = .ok (b, (w.advance 1).cursor) := by
  simp [Walker.cursor, Walker.advance, hr, Reader.next]

theorem exists_stands_next {w : Walker} {p : Nat} (hp : w.position < p)
    (hle : p ≤ (w.advance 1).position) :
    ∃ m, Footprint.stands m ∈ [.stands w.moment, .stands (w.advance 1).moment] ∧ m.position = p :=
  ⟨(w.advance 1).moment, by simp, (Nat.le_antisymm hle hp).symm⟩

theorem follows_next_ascii {c : Char} (hc : IsAscii c) :
    Follows k n (some (byte c)) Walk.next Reader.next 1 := by
  intro w hw _ hh
  obtain ⟨hr, hw'⟩ := hw.ascii hc hh
  rw [next_of_cons hr]
  exact
    { reader := reader_next_of_cons hr
      depth := rfl
      modest := List.forall_mem_cons.mpr ⟨hw.modest, List.forall_mem_singleton.mpr hw'.modest⟩
      settled := Walked.settled_of_lawful ⟨.inl hw.divides, .inl hw'.divides, trivial⟩
      seen := fun p hp hle => exists_stands_next hp hle
      taken := by
        intro b hb
        refine ⟨hw', ?_⟩
        show (w.advance 1).rest.length + 1 ≤ _
        rw [hr]
        simp }

/-- Where a byte of a wider character is refused, the walker may be left within this character. -/
theorem follows_next_wide {b : UInt8} {f : UInt8 → Walk β} {g : UInt8 → Reader β} {least : Nat}
    (h : BothFail (f b) (g b)) :
    Follows k n (some b) (Walk.next >>= f) (Reader.next >>= g) least := by
  intro w hw _ hh
  obtain ⟨rest, hr⟩ := List.head?_eq_some_iff.mp hh
  obtain ⟨e, hf, hg⟩ := h (w.advance 1)
  have hx : (Walk.next >>= f) w =
      ⟨.error e, w.advance 1, [.stands w.moment, .stands (w.advance 1).moment]⟩ := by
    show Walk.andThen Walk.next f w = _
    simp [Walk.andThen, next_of_cons hr, hf]
  have hreader : (Reader.next >>= g) w.cursor = .error e := by
    show (Reader.next w.cursor >>= fun p => g p.1 p.2) = _
    rw [reader_next_of_cons hr]
    exact hg
  have hbehind : (Footprint.stands (w.advance 1).moment).Modest (utf8 k.text).length := by
    have hp := hw.position_add
    simp only [hr, List.length_cons] at hp
    exact ⟨by show w.position + 1 ≤ _; omega, hw.bounded.1, hw.bounded.2, hw.bounded.3, hw.bounded.4⟩
  rw [hx]
  exact
    { reader := hreader
      depth := rfl
      modest := List.forall_mem_cons.mpr ⟨hw.modest, List.forall_mem_singleton.mpr hbehind⟩
      settled := ⟨[.stands w.moment], [.stands (w.advance 1).moment], rfl, ⟨.inl hw.divides, trivial⟩,
        List.forall_mem_singleton.mpr rfl, by intro a ha; cases ha⟩
      seen := fun p hp hle => exists_stands_next hp hle
      taken := by intro a ha; cases ha }

/-- A byte that decides what comes behind it. No byte of a wider character is accepted. -/
theorem follows_next_bind {f : UInt8 → Walk β} {g : UInt8 → Reader β} {least : Nat}
    (hf : ∀ c, IsAscii c → ∀ head, Follows k n head (f (byte c)) (g (byte c)) least)
    (hw : ∀ b : UInt8, 128 ≤ b.toNat → BothFail (f b) (g b)) :
    Follows k n head (Walk.next >>= f) (Reader.next >>= g) (least + 1) := by
  cases head with
  | none =>
    have hb := (follows_next_nil (k := k) (n := n)).bind_of (m := n) (f := f) (g := g) (b := least)
      (by omega) fun w v hw hh ho => by
        have hr : w.rest = [] := List.head?_eq_none_iff.mp hh
        simp [Walk.next, hr] at ho
    exact hb.least_le (by omega)
  | some b =>
    by_cases hb : b.toNat < 128
    · obtain ⟨c, hc, rfl⟩ := exists_ascii hb
      have hn := (follows_next_ascii (k := k) (n := n) hc).bind_of (m := n) (f := f) (g := g)
        (b := least) (by omega) fun w v hw hh ho => by
          rw [next_of_cons (hw.ascii hc hh).1] at ho
          cases ho
          exact hf c hc _
      exact hn.least_le (by omega)
    · exact follows_next_wide (hw b (by omega))

theorem follows_expect {c : Char} (hc : IsAscii c) :
    Follows k n head (Walk.expect c) (Reader.expect c) 1 := by
  unfold Walk.expect Reader.expect
  refine follows_next_bind (fun d hd head => ?_) fun b hb => ?_
  · exact .ite _ (fun _ => follows_pure ()) fun _ => follows_fail (bothFail _)
  · simp only [beq_byte_of_wide hb hc, Bool.false_eq_true, if_false]
    exact bothFail _

theorem follows_finish : Follows k n head Walk.finish Reader.finish 0 := by
  have h : Follows k n head _ _ (0 + 0) := follows_peek.bind
    (f := fun o : Option UInt8 => if o.isNone = true then pure PUnit.unit else
      do Walk.fail (.trailing (← Walk.position)))
    (g := fun o : Option UInt8 => if o.isNone = true then pure PUnit.unit else
      do throw (.trailing (← Reader.position)))
    fun o head => .ite _ (fun _ => follows_pure _) fun _ => follows_fail (bothFail _)
  exact h

theorem follows_baseType (b : UInt8) : Follows k n head (Walk.baseType b) (Reader.baseType b) 0 := by
  unfold Walk.baseType Reader.baseType
  cases BaseType.ofCode? (Char.ofNat b.toNat) with
  | none => exact follows_fail fun w => ⟨_, rfl, rfl⟩
  | some t => exact follows_pure t

theorem bothFail_baseType {b : UInt8} (hb : 128 ≤ b.toNat) :
    BothFail (Walk.baseType b) (Reader.baseType b) := by
  intro w
  obtain ⟨e, he⟩ := Reader.baseType_of_wide hb w.cursor
  refine ⟨.unknownCode b, ?_, ?_⟩
  all_goals
    unfold Reader.baseType at he
    cases h : BaseType.ofCode? (Char.ofNat b.toNat) with
    | none => simp [Walk.baseType, Reader.baseType, h]; rfl
    | some t =>
      rw [h] at he
      cases he

end

section
variable {text : List Char} {size : Nat}

theorem modest_steps {m : Moment} (hm : m.Bounded) {n : Nat} (hn : m.position + n ≤ size) :
    ∀ f ∈ m.steps n, f.Modest size := by
  induction n generalizing m with
  | zero =>
    intro f hf
    obtain rfl := List.mem_singleton.mp hf
    exact ⟨by omega, hm⟩
  | succ n ih =>
    intro f hf
    simp only [Moment.steps, List.mem_cons] at hf
    rcases hf with rfl | rfl | hf
    · exact ⟨by omega, hm⟩
    · exact Nat.lt_succ_self _
    · exact ih (m := { m with position := m.position + 1 }) ⟨hm.1, hm.2, hm.3, hm.4⟩
        (by show m.position + 1 + n ≤ size; omega) f hf

theorem lawful_steps {m : Moment} {n : Nat} {fs : List Footprint}
    (hm : ∀ j ≤ n, Divides text (m.position + j) ∨ m.inName = true ∧ ∃ start stop,
      .cuts start stop ∈ fs ∧ start < m.position + j ∧ m.position + j < stop)
    (hf : Lawful text fs) : Lawful text (m.steps n ++ fs) := by
  induction n generalizing m with
  | zero => exact ⟨hm 0 (Nat.le_refl 0), hf⟩
  | succ n ih =>
    refine ⟨(hm 0 (Nat.zero_le _)).imp_right fun h => ⟨h.1, ?_⟩, ?_⟩
    · obtain ⟨start, stop, hc, hlt⟩ := h.2
      exact ⟨start, stop, by simp [hc], hlt⟩
    · refine ih (m := { m with position := m.position + 1 }) fun j hj => ?_
      have hj' := hm (j + 1) (by omega)
      rwa [← Nat.add_assoc, Nat.add_right_comm] at hj'

theorem stands_mem_steps (m : Moment) {n j : Nat} (hj : j ≤ n) :
    .stands { m with position := m.position + j } ∈ m.steps n := by
  induction n generalizing m j with
  | zero =>
    obtain rfl := Nat.le_zero.mp hj
    simp [Moment.steps]
  | succ n ih =>
    cases j with
    | zero => simp [Moment.steps]
    | succ j =>
      have h := ih { m with position := m.position + 1 } (Nat.le_of_succ_le_succ hj)
      rw [show m.position + (j + 1) = m.position + 1 + j by omega]
      simp only [Moment.steps, List.mem_cons]
      exact .inr (.inr h)

theorem exists_stands_steps (m : Moment) {n p : Nat} (hp : m.position < p) (hle : p ≤ m.position + n) :
    ∃ m', .stands m' ∈ m.steps n ∧ m'.position = p := by
  have hj : p - m.position ≤ n := by omega
  exact ⟨_, stands_mem_steps m hj, by show m.position + (p - m.position) = p; omega⟩

end

section
variable {α β : Type} {k : Context} {n : Nat} {head : Option UInt8}

/-- At its ends a name has characters on both sides; in between it is still to be cut out. -/
theorem lawful_name {w : Walker} {n : Nat} (hw : k.Holds w) (hadv : k.Holds (w.advance n)) (hn : 0 < n) :
    Lawful k.text (w.withinName.steps n ++
      [.cuts w.position (w.position + n), .stands (w.advance n).moment]) := by
  refine lawful_steps (fun j hj => ?_) ⟨⟨by omega, hw.divides, hadv.divides⟩, .inl hadv.divides, trivial⟩
  rcases Nat.eq_zero_or_pos j with rfl | hj'
  · exact .inl hw.divides
  rcases Nat.eq_or_lt_of_le hj with rfl | hlt
  · exact .inl hadv.divides
  · refine .inr ⟨rfl, w.position, w.position + n, by simp, ?_⟩
    show w.position < w.position + j ∧ w.position + j < _
    omega

theorem follows_identifier {stops : List Char} (hs : ∀ c ∈ stops, IsAscii c) :
    Follows k n head (Walk.identifier stops) (Reader.identifier stops) 1 := by
  intro w hw _ _
  obtain ⟨before, after, ht, hr, hp⟩ := hw.between
  -- The name is made of whole characters, for none of the stops is a byte of another character.
  obtain ⟨htake, hdrop⟩ := span_utf8_stops hs after
  generalize hname : after.takeWhile (fun c => !stops.contains c) = name at htake
  generalize htail : after.dropWhile (fun c => !stops.contains c) = tail at hdrop
  obtain rfl : name ++ tail = after := by rw [← hname, ← htail, List.takeWhile_append_dropWhile]
  have hreader : Reader.identifier stops w.cursor =
      if (utf8 name).isEmpty then .error (.emptyIdentifier w.position)
      else .ok (Utf8.decodeLossy ⟨(utf8 name).toArray⟩,
        ⟨utf8 tail, w.position + (utf8 name).length⟩) := by
    rw [← htake, ← hdrop, ← hr]
    rfl
  have hwalk : Walk.identifier stops w =
      if (utf8 name).isEmpty then ⟨.error (.emptyIdentifier w.position), w,
        w.withinName.steps (utf8 name).length⟩
      else ⟨.ok (Utf8.decodeLossy ⟨(utf8 name).toArray⟩), w.advance (utf8 name).length,
        w.withinName.steps (utf8 name).length ++
          [.cuts w.position (w.position + (utf8 name).length),
            .stands (w.advance (utf8 name).length).moment]⟩ := by
    rw [← htake, ← hr]
    rfl
  have hadv := hw.advance ht hr hp
  have hpos := hadv.position_add
  have hstop : (w.advance (utf8 name).length).position = w.position + (utf8 name).length := rfl
  have hmodest : ∀ f ∈ w.withinName.steps (utf8 name).length, f.Modest (utf8 k.text).length :=
    modest_steps hw.bounded_withinName (by show w.position + _ ≤ _; omega)
  by_cases hne : utf8 name = []
  · rw [hwalk, if_pos (by simp [hne])]
    rw [if_pos (by simp [hne])] at hreader
    refine .fault hreader hmodest ?_
    rw [hne]
    exact ⟨.inl hw.divides, trivial⟩
  · rw [hwalk, if_neg (by simpa using hne)]
    rw [if_neg (by simpa using hne)] at hreader
    have hlen : 0 < (utf8 name).length := List.length_pos_iff.mpr hne
    have hrest : (w.advance (utf8 name).length).rest = utf8 tail := by simp [Walker.advance, hr, utf8]
    have hlength : w.rest.length = (utf8 name).length + (utf8 tail).length := by simp [hr, utf8]
    exact
      { reader := by rw [hreader, ← hrest]; rfl
        depth := rfl
        modest := by
          intro f hf
          simp only [List.mem_append, List.mem_cons, List.not_mem_nil, or_false] at hf
          rcases hf with hf | rfl | rfl
          · exact hmodest f hf
          · trivial
          · exact hadv.modest
        settled := Walked.settled_of_lawful (lawful_name hw hadv hlen)
        seen := by
          intro p hp hle
          obtain ⟨m, hm, he⟩ := exists_stands_steps w.withinName hp hle
          exact ⟨m, List.mem_append_left _ hm, he⟩
        taken := fun a _ => ⟨hadv, by show (w.advance _).rest.length + 1 ≤ _; rw [hrest]; omega⟩ }

theorem dimensions_last (w : Walker) :
    (Walk.dimensions w).last = w.advance (w.rest.takeWhile (· == byte '[')).length := by
  simp only [Walk.dimensions]
  split
  · rfl
  · rfl

theorem length_utf8_brackets (j : Nat) : (utf8 (List.replicate j '[')).length = j := by
  have hbracket : IsAscii '[' := by decide
  induction j with
  | zero => rfl
  | succ j ih => simp [List.replicate_succ, utf8EncodeChar_ascii hbracket, ih]

/-- Each bracket is a character, so that all places on the way are between two of them. -/
theorem Context.Holds.brackets {w : Walker} (h : k.Holds w) {before tail : List Char} {count j : Nat}
    (hj : j ≤ count) (ht : k.text = before ++ (List.replicate count '[' ++ tail))
    (hr : w.rest = utf8 (List.replicate count '[' ++ tail)) (hp : w.position = (utf8 before).length) :
    k.Holds (w.advance j) := by
  have hsplit : List.replicate count '[' ++ tail =
      List.replicate j '[' ++ (List.replicate (count - j) '[' ++ tail) := by
    rw [← List.append_assoc, List.replicate_append_replicate, Nat.add_sub_cancel' hj]
  rw [hsplit] at ht hr
  have hadv := h.advance ht hr hp
  rwa [length_utf8_brackets] at hadv

theorem follows_dimensions : Follows k n head Walk.dimensions Reader.dimensions 0 := by
  intro w hw _ _
  obtain ⟨before, after, ht, hr, hp⟩ := hw.between
  obtain ⟨count, tail, rfl, -, hcount, -⟩ := Reader.brackets_utf8 after
  have hadv : ∀ j ≤ count, k.Holds (w.advance j) := fun j hj => hw.brackets hj ht hr hp
  have hreader : Reader.dimensions w.cursor =
      if count > maxDimensions then .error (.tooManyDimensions count w.position)
      else .ok (count, (w.advance count).cursor) := by
    rw [← hcount, ← hr]
    rfl
  have hwalk : Walk.dimensions w =
      if count > maxDimensions then
        ⟨.error (.tooManyDimensions count w.position), w.advance count, w.moment.steps count⟩
      else ⟨.ok count, w.advance count, w.moment.steps count⟩ := by
    rw [← hcount, ← hr]
    rfl
  have hpos := (hadv count (Nat.le_refl _)).position_add
  have hstop : (w.advance count).position = w.position + count := rfl
  have hmodest : ∀ f ∈ w.moment.steps count, f.Modest (utf8 k.text).length :=
    modest_steps hw.bounded (by show w.position + count ≤ _; omega)
  have hlawful : Lawful k.text (w.moment.steps count) := by
    rw [← List.append_nil (w.moment.steps count)]
    exact lawful_steps (fun j hj => .inl (hadv j hj).divides) trivial
  have hseen : ∀ p, w.position < p → p ≤ (w.advance count).position →
      ∃ m, .stands m ∈ w.moment.steps count ∧ m.position = p :=
    fun p hp hle => exists_stands_steps w.moment hp hle
  -- Reader and walk count the same brackets, and too many are refused behind them by both.
  rw [hwalk]
  split at hreader
  · next hmany =>
    rw [if_pos hmany]
    exact
      { reader := hreader
        depth := rfl
        modest := hmodest
        settled := Walked.settled_of_lawful hlawful
        seen := hseen
        taken := by intro a ha; cases ha }
  · next hfew =>
    rw [if_neg hfew]
    have hrest : (w.advance count).rest.length ≤ w.rest.length := by simp [Walker.advance]
    exact
      { reader := hreader
        depth := rfl
        modest := hmodest
        settled := Walked.settled_of_lawful hlawful
        seen := hseen
        taken := fun _ _ => ⟨hadv count (Nat.le_refl _), hrest⟩ }

theorem follows_dimensions_bind {f : Nat → Walk β} {g : Nat → Reader β} {least : Nat}
    (hf : ∀ count head, head ≠ some (byte '[') → Follows k n head (f count) (g count) least) :
    Follows k n head (Walk.dimensions >>= f) (Reader.dimensions >>= g) least := by
  have h : Follows k n head (Walk.dimensions >>= f) (Reader.dimensions >>= g) (0 + least) :=
    follows_dimensions.bind_of (m := n) (Nat.le_refl n) fun w count hw _ _ => by
      refine hf count _ ?_
      obtain ⟨before, after, -, hr, -⟩ := hw.between
      obtain ⟨j, tail, -, htail, hj, hdrop⟩ := Reader.brackets_utf8 after
      rw [dimensions_last, hr, hj]
      show ((w.rest.drop j).head?) ≠ _
      rw [hr, hdrop]
      exact mt (head?_utf8 (by decide) tail).mp htail
  exact h.least_le (Nat.le_add_left _ _)

theorem follows_name {α : Type} (f : String → α) :
    Follows k n head (do let name ← Walk.identifier [';']; Walk.expect ';'; return f name)
      (do let name ← Reader.identifier [';']; Reader.expect ';'; return f name) 2 :=
  (follows_identifier (by simp [IsAscii])).bind fun name _ =>
    (follows_expect (by decide)).bind fun _ _ => follows_pure (f name)

end

end ClassLocator.MethodType
