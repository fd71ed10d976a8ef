import ClassLocator.Proofs.Archive.Inflate
import ClassLocator.Proofs.Archive.Stream

namespace ClassLocator.Archive

namespace Excerpt

variable {x : Excerpt} {limit : Nat}

theorem upTo_of_le (h : limit ≤ x.bytes.size) : x.upTo limit = ⟨x.bytes.extract 0 limit, .open⟩ :=
  if_pos h

theorem upTo_of_lt (h : x.bytes.size < limit) : x.upTo limit = x := if_neg (by omega)

end Excerpt

theorem Inflate.Limited.upTo {limit : Nat} {whole x : Excerpt}
    (h : Inflate.Limited Inflate.excerptView limit whole x) : x.upTo limit = whole.upTo limit := by
  cases h with
  | inl heq => rw [heq]
  | inr h =>
    obtain ⟨-, hl, hb⟩ := h
    have hle : limit ≤ whole.bytes.size := Nat.le_trans hl hb.size_le
    have hextract : whole.bytes.extract 0 limit = x.bytes.extract 0 limit := hb.extract hl
    rw [Excerpt.upTo_of_le hl, Excerpt.upTo_of_le hle, hextract]

namespace Stream

def ofExcerpt (x : Excerpt) : Stream :=
  ⟨x.bytes, match x.ending with
    | .failed fault => some fault
    | _ => none⟩

theorem whole_ofExcerpt {x : Excerpt} (h : x.ending ≠ .open) : (ofExcerpt x).whole = x := by
  obtain ⟨bytes, ending⟩ := x
  cases ending with
  | complete => rfl
  | failed fault => rfl
  | «open» => exact absurd rfl h

/-- A stream whose end is reached only if all its bytes have a checksum. -/
def checked (s : Stream) (checksum : Nat) : Stream :=
  match s.fault? with
  | some _ => s
  | none => if (Checksum.ofBytes s.bytes).toNat = checksum then s else ⟨s.bytes, some .wrongChecksum⟩

theorem bytes_checked (s : Stream) (checksum : Nat) : (s.checked checksum).bytes = s.bytes := by
  simp only [checked]
  split
  · rfl
  · split <;> rfl

theorem checksum_of_checked {s : Stream} {checksum : Nat} (h : (s.checked checksum).fault? = none) :
    (Checksum.ofBytes (s.checked checksum).bytes).toNat = checksum := by
  rw [bytes_checked]
  simp only [checked] at h
  split at h
  · rename_i hfault
    rw [hfault] at h
    cases h
  · split at h
    · assumption
    · cases h

end Stream

theorem Entry.exists_expand (e : Entry) :
    ∃ s : Stream, ∀ limit, (e.expand limit).upTo limit = s.whole.upTo limit := by
  cases hc : e.compression with
  | stored => exact ⟨⟨e.data, none⟩, fun limit => by simp only [expand, hc]; rfl⟩
  | deflated =>
    obtain ⟨whole, hopen, h⟩ := exists_inflate e.data
    refine ⟨.ofExcerpt whole, fun limit => ?_⟩
    rw [Stream.whole_ofExcerpt hopen]
    simp only [expand, hc]
    exact (h limit).upTo

/-- The data of an entry are a stream, whose end is reached only with the right checksum. -/
theorem Entry.exists_stream (e : Entry) : ∃ s : Stream,
    (s.fault? = none → (Checksum.ofBytes s.bytes).toNat = e.checksum) ∧
      ∀ limit, e.excerpt limit = s.whole.upTo limit := by
  obtain ⟨s, h⟩ := e.exists_expand
  refine ⟨s.checked e.checksum, Stream.checksum_of_checked, fun limit => ?_⟩
  rw [excerpt, h limit]
  by_cases hl : limit ≤ s.bytes.size
  · have hl' : limit ≤ (s.checked e.checksum).bytes.size := by rwa [Stream.bytes_checked]
    rw [Excerpt.upTo_of_le hl, Excerpt.upTo_of_le hl', Stream.whole, Stream.whole, Stream.bytes_checked]
  · have hl' : ¬limit ≤ (s.checked e.checksum).bytes.size := by rwa [Stream.bytes_checked]
    rw [Excerpt.upTo_of_lt (Nat.lt_of_not_le hl), Excerpt.upTo_of_lt (Nat.lt_of_not_le hl')]
    obtain ⟨bytes, fault?⟩ := s
    cases fault? with
    | some fault => rfl
    | none =>
      by_cases hsum : (Checksum.ofBytes bytes).toNat = e.checksum
      · simp [Stream.whole, Stream.ending, Stream.checked, hsum]
      · simp [Stream.whole, Stream.ending, Stream.checked, hsum]

def Stream.content (s : Stream) (name : String) (limit declared : Nat) : Except Failure ByteArray :=
  if limit < declared then .error (.entryTooLarge name declared limit)
  else if limit < s.bytes.size then .error (.entryTooLarge name (limit + 1) limit)
  else s.fault?.elim (.ok s.bytes) fun fault => .error (.entryData fault)

def Stream.extent (s : Stream) (limit declared : Nat) : Stream.Progress :=
  if limit < declared then {}
  else if limit < s.bytes.size then { consumed := limit + 1 }
  else ⟨s.bytes.size, true⟩

/-- One byte beyond the limit is enough to tell whether the stream ends within it. -/
theorem Stream.withinLimit_upTo (s : Stream) (name : String) (limit : Nat) :
    (s.whole.upTo (limit + 1)).withinLimit name limit =
      if limit < s.bytes.size then .error (.entryTooLarge name (limit + 1) limit)
      else s.fault?.elim (.ok s.bytes) fun fault => .error (.entryData fault) := by
  by_cases hl : limit < s.bytes.size
  · have hsize : (s.bytes.extract 0 (limit + 1)).size = limit + 1 := by
      rw [ByteArray.size_extract]
      omega
    have hmore : (s.bytes.extract 0 (limit + 1)).size > limit := by omega
    rw [if_pos hl, Excerpt.upTo_of_le hl, Excerpt.withinLimit]
    exact if_pos hmore
  · rw [if_neg hl, Excerpt.upTo_of_lt (Nat.lt_succ_of_le (Nat.le_of_not_lt hl)), Excerpt.withinLimit]
    obtain ⟨bytes, fault?⟩ := s
    cases fault? with
    | none => exact if_neg hl
    | some fault => exact if_neg hl

theorem readBounded_take (name : String) (limit declared : Nat) (s : Stream)
    (wanted : Stream.Progress → Nat → Nat) : readBounded name limit declared (s.take wanted) {} =
      (s.content name limit declared, s.extent limit declared) := by
  rw [readBounded, Stream.content, Stream.extent]
  by_cases hd : limit < declared
  · rw [if_pos hd, if_pos hd, if_pos hd]
    rfl
  · rw [if_neg hd, if_neg hd, if_neg hd, ← s.withinLimit_upTo]
    show ((s.take wanted (limit + 1) {}).1.withinLimit name limit, (s.take wanted (limit + 1) {}).2) = _
    rw [s.take_eq]
    by_cases hl : limit < s.bytes.size
    · rw [if_pos hl, if_pos (Nat.succ_le_of_lt hl)]
    · rw [if_neg hl, if_neg (by omega)]

/-- A stream is read the same in whatever portions it comes. If its declared size is over the limit, it is
refused and nothing is read; if it is longer than the limit itself, it is refused too; otherwise its end is
met, and its bytes are given unless there is a fault. At most one byte beyond the limit is taken. The data
of every entry are such a stream, which ends without a fault only if its bytes have the declared checksum.
-/
theorem readBounded_stream :
    (∀ (name : String) (declared : Nat) (s : Stream) (wanted : Stream.Progress → Nat → Nat),
      let (content, progress) := readBounded name maxEntrySize declared (s.take wanted) {}
      (maxEntrySize < declared →
        content = .error (.entryTooLarge name declared maxEntrySize) ∧ progress = {}) ∧
      (declared ≤ maxEntrySize → maxEntrySize < s.bytes.size →
        content = .error (.entryTooLarge name (maxEntrySize + 1) maxEntrySize)) ∧
      (declared ≤ maxEntrySize → s.bytes.size ≤ maxEntrySize → progress.atEnd ∧
        content = s.fault?.elim (.ok s.bytes) fun fault => .error (.entryData fault)) ∧
      progress.consumed ≤ maxEntrySize + 1) ∧
    ∀ e : Entry, ∃ s : Stream,
      (s.fault? = none → (Checksum.ofBytes s.bytes).toNat = e.checksum) ∧
      ∀ wanted, (∀ limit, e.excerpt limit = (s.take wanted limit {}).1) ∧
        e.read = (readBounded e.name maxEntrySize e.size (s.take wanted) {}).1 := by
  constructor
  · intro name declared s wanted
    rw [readBounded_take]
    simp only [Stream.content, Stream.extent]
    refine ⟨fun hd => ?_, fun hd hs => ?_, fun hd hs => ?_, ?_⟩
    · rw [if_pos hd, if_pos hd]
      exact ⟨rfl, rfl⟩
    · rw [if_neg (by omega), if_pos hs]
    · rw [if_neg (by omega), if_neg (by omega), if_neg (by omega), if_neg (by omega)]
      exact ⟨rfl, rfl⟩
    · split
      · exact Nat.zero_le _
      · split
        · exact Nat.le_refl _
        · simp only
          omega
  · intro e
    obtain ⟨s, hsum, h⟩ := e.exists_stream
    refine ⟨s, hsum, fun wanted => ⟨fun limit => by rw [h, s.take_eq], ?_⟩⟩
    rw [readBounded_take, Stream.content, ← s.withinLimit_upTo, ← h, Entry.read, readBounded]
    split
    · rfl
    · rfl

end ClassLocator.Archive
