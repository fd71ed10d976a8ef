import ClassLocator.Proofs.MethodType.Descriptor
import ClassLocator.Proofs.MethodType.Walk
/-!
Walks that follow a reader. Such a walk comes to what the reader comes to, is never granted too little,
keeps to its depth and to the calls that are allowed, and cuts the text between characters only. All of this
is one property, which is kept where walks are put together as readers are.
-/

namespace ClassLocator.MethodType

open Text
open Reader (byte)

def Divides (text : List Char) (place : Nat) : Prop :=
  ∃ before after, text = before ++ after ∧ place = (utf8 before).length

/-- Between characters stand all moments outside of names and both ends of what is cut out. Within a name
that is then cut out, a walker may stand anywhere. -/
def Lawful (text : List Char) : List Footprint → Prop
  | [] => True
  | .stands m :: fs =>
    (Divides text m.position ∨ m.inName = true ∧ ∃ start stop, .cuts start stop ∈ fs ∧
      start < m.position ∧ m.position < stop) ∧ Lawful text fs
  | .cuts start stop :: fs => (start < stop ∧ Divides text start ∧ Divides text stop) ∧ Lawful text fs
  | .returns .. :: fs | .turns .. :: fs | .stalls :: fs => Lawful text fs

structure Moment.Bounded (m : Moment) : Prop where
  counted : m.active.count .arguments = m.depth
  shallow : m.depth ≤ maxArgumentDepth
  few : m.active.count .reference ≤ 2 * (maxArgumentDepth + 1)
  short : m.active.length < 6 * (maxArgumentDepth + 1)

def Footprint.Modest (size : Nat) : Footprint → Prop
  | stands m => m.position ≤ size ∧ m.Bounded
  | cuts .. => True
  | returns _ before after => after = before
  | turns start stop => start < stop
  | stalls => False

/-- What a walk that ends in a fault within a character may still leave: no cut, and nothing of a name. -/
def Footprint.Idle : Footprint → Prop
  | stands m => m.inName = false
  | cuts .. => False
  | returns .. | turns .. | stalls => True

theorem Lawful.append {text : List Char} {fs gs : List Footprint} (hf : Lawful text fs)
    (hg : Lawful text gs) : Lawful text (fs ++ gs) := by
  induction fs with
  | nil => exact hg
  | cons f fs ih =>
    cases f with
    | stands m =>
      obtain ⟨hm, hf⟩ := hf
      refine ⟨hm.imp_right fun h => ⟨h.1, ?_⟩, ih hf⟩
      obtain ⟨start, stop, hc, hlt⟩ := h.2
      exact ⟨start, stop, List.mem_append_left _ hc, hlt⟩
    | cuts start stop => exact ⟨hf.1, ih hf.2⟩
    | returns routine before after => exact ih hf
    | turns start stop => exact ih hf
    | stalls => exact ih hf

structure Context where
  text : List Char
  depth : Nat
  active : List Routine
  counted : active.count .arguments = depth
  shallow : depth ≤ maxArgumentDepth
  few : active.count .reference ≤ 2 * (maxArgumentDepth + 1)
  short : active.length < 6 * (maxArgumentDepth + 1)

/-- The walker is in this context and between two characters. -/
structure Context.Holds (k : Context) (w : Walker) : Prop where
  depth : w.depth = k.depth
  active : w.active = k.active
  between : ∃ before after,
    k.text = before ++ after ∧ w.rest = utf8 after ∧ w.position = (utf8 before).length

namespace Context.Holds

variable {k : Context} {w : Walker}

theorem divides (h : k.Holds w) : Divides k.text w.position := by
  obtain ⟨before, after, ht, -, hp⟩ := h.between
  exact ⟨before, after, ht, hp⟩

theorem position_add (h : k.Holds w) : w.position + w.rest.length = (utf8 k.text).length := by
  obtain ⟨before, after, ht, hr, hp⟩ := h.between
  simp [ht, hr, hp, utf8]

theorem bounded (h : k.Holds w) : w.moment.Bounded where
  counted := by simp [Walker.moment, h.depth, h.active, k.counted]
  shallow := by simp [Walker.moment, h.depth, k.shallow]
  few := by simp [Walker.moment, h.active, k.few]
  short := by simp [Walker.moment, h.active, k.short]

theorem bounded_withinName (h : k.Holds w) : w.withinName.Bounded :=
  ⟨h.bounded.counted, h.bounded.shallow, h.bounded.few, h.bounded.short⟩

theorem modest (h : k.Holds w) : (Footprint.stands w.moment).Modest (utf8 k.text).length := by
  have hp := h.position_add
  exact ⟨by show w.position ≤ _; omega, h.bounded⟩

end Context.Holds

/-- The footprints are lawful up to where a walk that ends in a fault is left within a character. -/
def Walked.Settled {α : Type} (text : List Char) (o : Walked α) : Prop :=
  ∃ front back, o.footprints = front ++ back ∧ Lawful text front ∧ (∀ f ∈ back, f.Idle) ∧
    ∀ a, o.outcome = .ok a → back = []

theorem Walked.settled_of_lawful {α : Type} {text : List Char} {o : Walked α}
    (h : Lawful text o.footprints) : o.Settled text :=
  ⟨_, [], (List.append_nil _).symm, h, by simp, fun _ _ => rfl⟩

theorem Walked.Settled.lawful {α : Type} {text : List Char} {o : Walked α} {a : α} (h : o.Settled text)
    (ho : o.outcome = .ok a) : Lawful text o.footprints := by
  obtain ⟨front, back, hfb, hfront, -, hnil⟩ := h
  rw [hfb, hnil a ho, List.append_nil]
  exact hfront

/-- What a walk from `w` came to, beside the reader that it follows. At least so many bytes are taken if it
ends well. -/
structure Walked.Sound {α : Type} (k : Context) (r : Reader α) (least : Nat) (w : Walker) (o : Walked α) :
    Prop where
  reader : r w.cursor = o.outcome.map fun a => (a, o.last.cursor)
  depth : o.last.depth = w.depth
  modest : ∀ f ∈ o.footprints, f.Modest (utf8 k.text).length
  settled : o.Settled k.text
  seen : ∀ p, w.position < p → p ≤ o.last.position → ∃ m, .stands m ∈ o.footprints ∧ m.position = p
  taken : ∀ a, o.outcome = .ok a → k.Holds o.last ∧ o.last.rest.length + least ≤ w.rest.length

section
variable {α : Type} {k : Context} {r : Reader α} {w : Walker} {fs : List Footprint}

theorem Walked.Sound.stay {a : α} (hw : k.Holds w) (hr : r w.cursor = .ok (a, w.cursor))
    (hm : ∀ f ∈ fs, f.Modest (utf8 k.text).length) (hl : Lawful k.text fs) :
    Walked.Sound k r 0 w ⟨.ok a, w, fs⟩ where
  reader := hr
  depth := rfl
  modest := hm
  settled := settled_of_lawful hl
  seen := by intro p hp hle; exact absurd hle (Nat.not_le.mpr hp)
  taken := fun _ _ => ⟨hw, Nat.le_refl _⟩

theorem Walked.Sound.fault {e : Fault} {least : Nat} (hr : r w.cursor = .error e)
    (hm : ∀ f ∈ fs, f.Modest (utf8 k.text).length) (hl : Lawful k.text fs) :
    Walked.Sound k r least w ⟨.error e, w, fs⟩ where
  reader := hr
  depth := rfl
  modest := hm
  settled := settled_of_lawful hl
  seen := by intro p hp hle; exact absurd hle (Nat.not_le.mpr hp)
  taken := by intro a ha; cases ha

end

/-- The walk follows the reader wherever it starts in this context, in front of the byte `head` or at the
end and with fewer than `n` bytes left. -/
def Follows {α : Type} (k : Context) (n : Nat) (head : Option UInt8) (x : Walk α) (r : Reader α)
    (least : Nat) : Prop :=
  ∀ w, k.Holds w → w.rest.length < n → w.rest.head? = head → (x w).Sound k r least w

def BothFail {α : Type} (x : Walk α) (r : Reader α) : Prop :=
  ∀ w, ∃ e, x w = ⟨.error e, w, []⟩ ∧ r w.cursor = .error e

section
variable {α β : Type} {k : Context} {n : Nat} {head : Option UInt8}

theorem Follows.of_le {x : Walk α} {r : Reader α} {m least : Nat} (h : Follows k n head x r least)
    (hm : m ≤ n) : Follows k m head x r least :=
  fun w hw hlt hh => h w hw (Nat.lt_of_lt_of_le hlt hm) hh

theorem Follows.least_le {x : Walk α} {r : Reader α} {least least' : Nat}
    (h : Follows k n head x r least) (hl : least' ≤ least) : Follows k n head x r least' := by
  intro w hw hlt hh
  have hs := h w hw hlt hh
  exact { hs with taken := fun a ha => ⟨(hs.taken a ha).1, by have := (hs.taken a ha).2; omega⟩ }

theorem follows_pure (a : α) : Follows k n head (pure a) (pure a) 0 :=
  fun _ hw _ _ => .stay hw rfl (List.forall_mem_nil _) trivial

theorem bothFail (e : Nat → Fault) :
    BothFail (do Walk.fail (e (← Walk.position)) : Walk α) (do throw (e (← Reader.position))) :=
  fun _ => ⟨_, rfl, rfl⟩

theorem BothFail.bind {x : Walk α} {r : Reader α} (h : BothFail x r) (f : α → Walk β)
    (g : α → Reader β) : BothFail (x >>= f) (r >>= g) := by
  intro w
  obtain ⟨e, hx, hr⟩ := h w
  refine ⟨e, ?_, ?_⟩
  · show Walk.andThen x f w = _
    simp [Walk.andThen, hx]
  · show (r w.cursor >>= fun p => g p.1 p.2) = _
    rw [hr]
    rfl

theorem follows_fail {x : Walk α} {r : Reader α} {least : Nat} (h : BothFail x r) :
    Follows k n head x r least := by
  intro w _ _ _
  obtain ⟨e, hx, hr⟩ := h w
  rw [hx]
  exact .fault hr (List.forall_mem_nil _) trivial

/-- The second walk need only follow its reader from where the first one can have led. -/
theorem Follows.bind_of {x : Walk α} {r : Reader α} {f : α → Walk β} {g : α → Reader β} {m a b : Nat}
    (hx : Follows k n head x r a) (hn : n ≤ m + a)
    (hf : ∀ w v, k.Holds w → w.rest.head? = head → (x w).outcome = .ok v →
      Follows k m (x w).last.rest.head? (f v) (g v) b) :
    Follows k n head (x >>= f) (r >>= g) (a + b) := by
  intro w hw hlt hh
  have hs := hx w hw hlt hh
  show (Walk.andThen x f w).Sound k (r >>= g) (a + b) w
  have hr : (r >>= g) w.cursor = (r w.cursor >>= fun p => g p.1 p.2) := rfl
  rw [hs.reader] at hr
  cases ho : (x w).outcome with
  | error e =>
    -- The second walk does not begin, so all that is seen is of the first one.
    rw [ho] at hr
    have hx : Walk.andThen x f w = ⟨.error e, (x w).last, (x w).footprints⟩ := by
      simp [Walk.andThen, ho]
    obtain ⟨front, back, hfb, hfront, hback, -⟩ := hs.settled
    rw [hx]
    exact
      { reader := hr
        depth := hs.depth
        modest := hs.modest
        settled := ⟨front, back, hfb, hfront, hback, by intro a ha; cases ha⟩
        seen := hs.seen
        taken := by intro a ha; cases ha }
  | ok v =>
    rw [ho] at hr
    obtain ⟨hw', hle⟩ := hs.taken v ho
    have ht := hf w v hw hh ho (x w).last hw' (by omega) rfl
    have hx : Walk.andThen x f w = { f v (x w).last with
        footprints := (x w).footprints ++ (f v (x w).last).footprints } := by
      simp [Walk.andThen, ho]
    obtain ⟨front, back, hfb, hfront, hback, hnil⟩ := ht.settled
    rw [hx]
    exact
      { reader := hr.trans ht.reader
        depth := ht.depth.trans hs.depth
        modest := List.forall_mem_append.mpr ⟨hs.modest, ht.modest⟩
        settled := ⟨(x w).footprints ++ front, back, by simp [hfb], (hs.settled.lawful ho).append hfront,
          hback, hnil⟩
        seen := by
          intro p hp hle
          by_cases hm : p ≤ (x w).last.position
          · obtain ⟨m, hm, he⟩ := hs.seen p hp hm
            exact ⟨m, List.mem_append_left _ hm, he⟩
          · obtain ⟨m, hm, he⟩ := ht.seen p (by omega) hle
            exact ⟨m, List.mem_append_right _ hm, he⟩
        taken := by
          intro b hb
          obtain ⟨hk, hl⟩ := ht.taken b hb
          exact ⟨hk, by show (f v (x w).last).last.rest.length + _ ≤ _; omega⟩ }

theorem Follows.bind {x : Walk α} {r : Reader α} {f : α → Walk β} {g : α → Reader β} {a b : Nat}
    (hx : Follows k n head x r a) (hf : ∀ v head, Follows k n head (f v) (g v) b) :
    Follows k n head (x >>= f) (r >>= g) (a + b) :=
  hx.bind_of (Nat.le_add_right n a) fun _ v _ _ _ => hf v _

theorem Follows.bind_lt {x : Walk α} {r : Reader α} {f : α → Walk β} {g : α → Reader β} {a b : Nat}
    (hx : Follows k (n + 1) head x r (a + 1)) (hf : ∀ v head, Follows k n head (f v) (g v) b) :
    Follows k (n + 1) head (x >>= f) (r >>= g) (a + 1 + b) :=
  hx.bind_of (by omega) fun _ v _ _ _ => hf v _

theorem Follows.map {x : Walk α} {r : Reader α} {least : Nat} (h : Follows k n head x r least)
    (g : α → β) : Follows k n head (g <$> x) (g <$> r) least :=
  h.bind fun a _ => follows_pure (g a)

theorem Follows.ite {x y : Walk α} {r s : Reader α} {least : Nat} (c : Prop) [Decidable c]
    (hx : c → Follows k n head x r least) (hy : ¬c → Follows k n head y s least) :
    Follows k n head (if c then x else y) (if c then r else s) least := by
  by_cases hc : c
  · simpa only [if_pos hc] using hx hc
  · simpa only [if_neg hc] using hy hc

end

section
variable {α β : Type} {k : Context} {n : Nat} {head : Option UInt8}

theorem follows_peek : Follows k n head Walk.peek Reader.peek 0 := fun _ hw _ _ =>
  .stay hw rfl (List.forall_mem_singleton.mpr hw.modest) ⟨.inl hw.divides, trivial⟩

theorem follows_sees (c : Char) : Follows k n head (Walk.sees c) (Reader.sees c) 0 :=
  follows_peek.bind fun v _ => follows_pure (v == some (byte c))

/-- A look of the walk alone: what it sees is the byte in front of which it starts. -/
theorem Follows.walk_sees {c : Char} {f : Bool → Walk β} {r : Reader β} {least : Nat}
    (h : Follows k n head (f (head == some (byte c))) r least) :
    Follows k n head (Walk.sees c >>= f) r least := by
  have hb : Follows k n head (Walk.sees c >>= f) (Reader.sees c >>= fun _ => r) (0 + least) :=
    (follows_sees c).bind_of (m := n) (Nat.le_refl n) fun w v _ hh ho => by
      subst hh
      cases ho
      exact h
  exact hb.least_le (Nat.le_add_left _ _)

theorem Follows.reader_sees {c : Char} {x : Walk β} {g : Bool → Reader β} {least : Nat}
    (h : Follows k n head x (g (head == some (byte c))) least) :
    Follows k n head x (Reader.sees c >>= g) least := by
  intro w hw hlt hh
  have hs := h w hw hlt hh
  have hr : (Reader.sees c >>= g) w.cursor = g (head == some (byte c)) w.cursor := by
    rw [← hh]
    rfl
  exact { hs with reader := hr.trans hs.reader }

theorem follows_sees_bind {c : Char} {f : Bool → Walk β} {g : Bool → Reader β} {least : Nat}
    (h : Follows k n head (f (head == some (byte c))) (g (head == some (byte c))) least) :
    Follows k n head (Walk.sees c >>= f) (Reader.sees c >>= g) least :=
  h.reader_sees.walk_sees

end

end ClassLocator.MethodType
