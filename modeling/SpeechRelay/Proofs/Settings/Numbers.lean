import Mathlib.Algebra.Ring.Nat
import SpeechRelay.Proofs.Settings.Fields

/-!
# Numbers are read exactly

A source gives a number as decimal digits, of any length, or as an integer of a signed word. A field
of some bits reads it as that number if it has no more bits, and otherwise not at all
(`reading_of_gives`). What has parts and what is not there is read as no number.

`Value.field?` is what a section has for a field. Settings that could be loaded have read each of
their numbers there (`exists_yields_of_ofValue`).
-/

set_option autoImplicit false

namespace SpeechRelay.Settings

/-! ## Kinds of numbers -/

/-- How many bits a number of that kind has. -/
def Kind.bits? : Kind → Option Nat
  | .word16 => some 16
  | .word32 => some 32
  | .word64 => some 64
  | _ => none

/-- The number that a datum is. -/
def Kind.toNat? : (k : Kind) → k.Datum → Option Nat
  | .word16, n => some n.toNat
  | .word32, n => some n.toNat
  | .word64, n => some n.toNat
  | _, _ => none

/-- The scalar gives a number: in digits of any length, or as an integer of a signed word. -/
inductive Scalar.Gives (n : Nat) : Scalar → Prop where
  | integer (h : n < 0x8000000000000000) : Gives n (.integer n)
  | text {s : String} (h : IsDecimal s n) : Gives n (.text s)

/-- A scalar that gives a number is that number. -/
theorem Scalar.Gives.isNumber {s : Scalar} {n : Nat} (h : s.Gives n) : s.IsNumber n := by
  cases h with
  | integer h => exact .integer
  | text h => exact .text h

/-- A number with no more bits than the kind has is one of its data. -/
theorem Kind.exists_datum {k : Kind} {bits n : Nat} (hbits : k.bits? = some bits)
    (hn : n < 2 ^ bits) : ∃ d : k.Datum, k.toNat? d = some n := by
  cases k with
  | word16 =>
    obtain rfl := Option.some.inj hbits
    exact ⟨UInt16.ofNat n, congrArg some (UInt16.toNat_ofNat_of_lt' hn)⟩
  | word32 =>
    obtain rfl := Option.some.inj hbits
    exact ⟨UInt32.ofNat n, congrArg some (UInt32.toNat_ofNat_of_lt' hn)⟩
  | word64 =>
    obtain rfl := Option.some.inj hbits
    exact ⟨UInt64.ofNat n, congrArg some (UInt64.toNat_ofNat_of_lt' hn)⟩
  | truth => cases hbits
  | text => cases hbits
  | optionalText => cases hbits

/-- A datum has no more bits than its kind. -/
theorem Kind.lt_of_toNat? {k : Kind} {bits n : Nat} (hbits : k.bits? = some bits) {d : k.Datum}
    (h : k.toNat? d = some n) : n < 2 ^ bits := by
  cases k with
  | word16 =>
    obtain rfl := Option.some.inj hbits
    obtain rfl := Option.some.inj h
    exact d.toNat_lt
  | word32 =>
    obtain rfl := Option.some.inj hbits
    obtain rfl := Option.some.inj h
    exact d.toNat_lt
  | word64 =>
    obtain rfl := Option.some.inj hbits
    obtain rfl := Option.some.inj h
    exact d.toNat_lt
  | truth => cases hbits
  | text => cases hbits
  | optionalText => cases hbits

/-- A scalar that gives the number of a datum stands for the datum. -/
theorem Scalar.Gives.standsFor {s : Scalar} {k : Kind} {d : k.Datum} {n : Nat} (h : s.Gives n)
    (hd : k.toNat? d = some n) : s.StandsFor k d := by
  have hnumber := h.isNumber
  cases k with
  | word16 =>
    obtain rfl := Option.some.inj hd
    exact hnumber
  | word32 =>
    obtain rfl := Option.some.inj hd
    exact hnumber
  | word64 =>
    obtain rfl := Option.some.inj hd
    exact hnumber
  | truth => cases hd
  | text => cases hd
  | optionalText => cases hd

/-- Two readings in a row have succeeded only if both have. -/
theorem bind_eq_ok {ε α β : Type} {x : Except ε α} {k : α → Except ε β} {b : β}
    (h : (x >>= k) = .ok b) : ∃ a, x = .ok a ∧ k a = .ok b := by
  cases x with
  | error why => cases h
  | ok a => exact ⟨a, rfl, h⟩

/-- A mapped reading has succeeded only if the reading has. -/
theorem map_eq_ok {ε α β : Type} {x : Except ε α} {k : α → β} {b : β} (h : x.map k = .ok b) :
    ∃ a, x = .ok a ∧ k a = b := by
  cases x with
  | error why => cases h
  | ok a => exact ⟨a, rfl, Except.ok.inj h⟩

section Readings

variable {s : Scalar} {n : Nat} (key : String) (origin : Option Origin)

/-- A number that a word cannot hold is not read. -/
theorem readWord_of_large (h : s.Gives n) (hlarge : Machine.wordSize ≤ n) :
    ∃ why, readWord key (.scalar origin s) = .error why := by
  cases h with
  | integer h =>
    have hsmall : n < Machine.wordSize := Nat.lt_trans h (by decide)
    omega
  | text h =>
    have hnone : wordOfText? _ = none := (wordOfText?_eq h).trans (if_neg (Nat.not_lt.mpr hlarge))
    rw [readWord_of_digits key origin h.digits, hnone]
    exact ⟨_, rfl⟩

/-- A number with more bits than are wanted is not read. -/
theorem readNumber_of_large {bits : Nat} (h : s.Gives n) (hlarge : 2 ^ bits ≤ n) :
    ∃ why, readNumber bits key (.scalar origin s) = .error why := by
  unfold readNumber
  by_cases hfits : n < Machine.wordSize
  · rw [readWord_of_isNumber key origin h.isNumber hfits]
    have hbits : ¬n < Nat.pow 2 bits := Nat.not_lt.mpr hlarge
    refine ⟨_, if_neg hbits⟩
  · obtain ⟨why, hwhy⟩ := readWord_of_large key origin h (Nat.not_lt.mp hfits)
    rw [hwhy]
    exact ⟨why, rfl⟩

/-- A number is read exactly if it has no more bits than the field, and otherwise not at all. -/
theorem reading_of_gives {k : Kind} {bits : Nat} (hbits : k.bits? = some bits) (h : s.Gives n) :
    (n < 2 ^ bits ∧ ∃ d, k.reading key (.scalar origin s) = .ok d ∧ k.toNat? d = some n) ∨
      (2 ^ bits ≤ n ∧ ∃ why, k.reading key (.scalar origin s) = .error why) := by
  by_cases hn : n < 2 ^ bits
  · obtain ⟨d, hd⟩ := Kind.exists_datum hbits hn
    exact .inl ⟨hn, d, reading_of_standsFor key origin (h.standsFor hd), hd⟩
  · right
    have hlarge := Nat.not_lt.mp hn
    refine ⟨hlarge, ?_⟩
    cases k with
    | word16 =>
      obtain rfl := Option.some.inj hbits
      obtain ⟨why, hwhy⟩ := readNumber_of_large key origin h hlarge
      exact ⟨why, congrArg (Except.map UInt16.ofNat) hwhy⟩
    | word32 =>
      obtain rfl := Option.some.inj hbits
      obtain ⟨why, hwhy⟩ := readNumber_of_large key origin h hlarge
      exact ⟨why, congrArg (Except.map UInt32.ofNat) hwhy⟩
    | word64 =>
      obtain rfl := Option.some.inj hbits
      obtain ⟨why, hwhy⟩ := readWord_of_large key origin h hlarge
      exact ⟨why, congrArg (Except.map UInt64.ofNat) hwhy⟩
    | truth => cases hbits
    | text => cases hbits
    | optionalText => cases hbits

end Readings

/-- The value is read as the number, or it is not read. -/
def Value.ReadsAs (v : Value) (k : Kind) (n : Nat) : Prop :=
  ∀ key d, k.reading key v = .ok d → k.toNat? d = some n

/-- A value that has parts or is not there is read as no number. -/
inductive Value.IsUnread : Value → Prop where
  | nothing : IsUnread Value.nothing
  | list (origin : Option Origin) (items : List Value) : IsUnread (.list origin items)
  | table (origin : Option Origin) (entries : List (String × Value)) :
    IsUnread (.table origin entries)

/-- A scalar that gives a number is read as no other one. -/
theorem readsAs_of_gives {k : Kind} {bits n : Nat} (hbits : k.bits? = some bits)
    {s : Scalar} (h : s.Gives n) (origin : Option Origin) :
    (Value.scalar origin s).ReadsAs k n := by
  intro key d hd
  rcases reading_of_gives key origin hbits h with ⟨-, e, he, hnumber⟩ | ⟨-, why, hwhy⟩
  · rw [he] at hd
    obtain rfl := Except.ok.inj hd
    exact hnumber
  · rw [hwhy] at hd
    cases hd

/-- A value that is not read at all is read as no other number. -/
theorem Value.IsUnread.readsAs {k : Kind} {bits : Nat} (hbits : k.bits? = some bits) {v : Value}
    (h : v.IsUnread) (n : Nat) : v.ReadsAs k n := by
  intro key d hd
  cases k with
  | word16 => cases h <;> cases hd
  | word32 => cases h <;> cases hd
  | word64 => cases h <;> cases hd
  | truth => cases hbits
  | text => cases hbits
  | optionalText => cases hbits

/-! ## Where a number is read -/

/-- The place of a field in a section that is written as a list. -/
def Field.place : Field → Nat
  | enabled | url | channels | backend | pcmLogPath => 0
  | host | audioEvent | bytesPerSample | modelPath => 1
  | port | transcriptEvent | consumeGateBytes | logPartials => 2
  | reconnectDelayMs | silenceFrameSamples => 3
  | clearOnDisconnect | pacingIntervalMs => 4
  | targetSampleRate => 5

/-- What a section has for a field: by its name in a table, by its place in a list. -/
def Value.field? (f : Field) (v : Value) : Option Value :=
  match v with
  | .table _ _ => v.get? f.name
  | .list _ items => items[f.place]?
  | .scalar _ _ => none

/-- What the section has for the field is read as the datum. -/
def Value.Yields (v : Value) (f : Field) (d : f.Datum) : Prop :=
  ∃ w key, v.field? f = some w ∧ f.kind.reading key w = .ok d

/-- What a section reads for a field is what it has for it. -/
theorem yields_of_read {s : Section} {v : Value} (f : Field) {d : f.Datum}
    (h : s.read v f.place f.name f.kind.reading = .ok (some d)) : v.Yields f d := by
  unfold Section.read at h
  cases v with
  | scalar origin scalar => cases h
  | table origin entries =>
    dsimp only at h
    cases hget : (Value.table origin entries).get? f.name with
    | none =>
      rw [hget] at h
      cases h
    | some w =>
      rw [hget] at h
      obtain ⟨e, he, hsome⟩ := map_eq_ok h
      obtain rfl := Option.some.inj hsome
      exact ⟨w, _, hget, he⟩
  | list origin items =>
    dsimp only at h
    cases hget : items[f.place]? with
    | none =>
      rw [hget] at h
      cases h
    | some w =>
      rw [hget] at h
      obtain ⟨e, he, hsome⟩ := map_eq_ok h
      obtain rfl := Option.some.inj hsome
      exact ⟨w, _, hget, he⟩

/-- A field that is demanded is there. -/
theorem demandField_eq_ok {α : Type} {name : String} {o : Option α} {a : α}
    (h : demandField name o = .ok a) : o = some a := by
  cases o with
  | none => cases h
  | some b => exact congrArg some (Except.ok.inj h)

section Sections

variable {v root : Value}

/-- A section of the server that is read has its port for that field. -/
theorem yields_port {x : ServerSection} (h : readServer v = .ok x) : v.Yields .port x.port := by
  unfold readServer at h
  obtain ⟨enabled, -, h⟩ := bind_eq_ok h
  obtain ⟨host, -, h⟩ := bind_eq_ok h
  obtain ⟨port, hport, h⟩ := bind_eq_ok h
  obtain ⟨_, -, h⟩ := bind_eq_ok h
  obtain ⟨_, -, h⟩ := bind_eq_ok h
  obtain ⟨d, hd, h⟩ := bind_eq_ok h
  obtain rfl := Except.ok.inj h
  obtain rfl := demandField_eq_ok hd
  exact yields_of_read .port hport

/-- A section of the stream that is read has its delay for that field. -/
theorem yields_reconnectDelayMs {x : StreamSection} (h : readStream v = .ok x) :
    v.Yields .reconnectDelayMs x.reconnectDelayMs := by
  unfold readStream at h
  obtain ⟨url, -, h⟩ := bind_eq_ok h
  obtain ⟨audioEvent, -, h⟩ := bind_eq_ok h
  obtain ⟨transcriptEvent, -, h⟩ := bind_eq_ok h
  obtain ⟨delay, hdelay, h⟩ := bind_eq_ok h
  obtain ⟨clear, -, h⟩ := bind_eq_ok h
  obtain ⟨_, -, h⟩ := bind_eq_ok h
  obtain ⟨_, -, h⟩ := bind_eq_ok h
  obtain ⟨_, -, h⟩ := bind_eq_ok h
  obtain ⟨d, hd, h⟩ := bind_eq_ok h
  obtain ⟨_, -, h⟩ := bind_eq_ok h
  obtain rfl := Except.ok.inj h
  obtain rfl := demandField_eq_ok hd
  exact yields_of_read .reconnectDelayMs hdelay

/-- A section of the audio that is read has each of its numbers for the field of that number. -/
theorem yields_audio {x : AudioSection} (h : readAudio v = .ok x) :
    v.Yields .channels x.channels ∧ v.Yields .bytesPerSample x.bytesPerSample ∧
      v.Yields .consumeGateBytes x.consumeGateBytes ∧
      v.Yields .silenceFrameSamples x.silenceFrameSamples ∧
      v.Yields .pacingIntervalMs x.pacingIntervalMs ∧
      v.Yields .targetSampleRate x.targetSampleRate := by
  unfold readAudio at h
  obtain ⟨channels, hchannels, h⟩ := bind_eq_ok h
  obtain ⟨width, hwidth, h⟩ := bind_eq_ok h
  obtain ⟨gate, hgate, h⟩ := bind_eq_ok h
  obtain ⟨silence, hsilence, h⟩ := bind_eq_ok h
  obtain ⟨pace, hpace, h⟩ := bind_eq_ok h
  obtain ⟨rate, hrate, h⟩ := bind_eq_ok h
  obtain ⟨d, hd, h⟩ := bind_eq_ok h
  obtain ⟨e, he, h⟩ := bind_eq_ok h
  obtain ⟨g, hg, h⟩ := bind_eq_ok h
  obtain ⟨i, hi, h⟩ := bind_eq_ok h
  obtain ⟨j, hj, h⟩ := bind_eq_ok h
  obtain ⟨k, hk, h⟩ := bind_eq_ok h
  obtain rfl := Except.ok.inj h
  obtain rfl := demandField_eq_ok hd
  obtain rfl := demandField_eq_ok he
  obtain rfl := demandField_eq_ok hg
  obtain rfl := demandField_eq_ok hi
  obtain rfl := demandField_eq_ok hj
  obtain rfl := demandField_eq_ok hk
  exact ⟨yields_of_read .channels hchannels, yields_of_read .bytesPerSample hwidth,
    yields_of_read .consumeGateBytes hgate, yields_of_read .silenceFrameSamples hsilence,
    yields_of_read .pacingIntervalMs hpace, yields_of_read .targetSampleRate hrate⟩

/-- A section that is read is there. -/
theorem readSection_eq_ok {α : Type} {name : String} {read : Value → Except LoadError α} {a : α}
    (h : readSection root name read = .ok a) : ∃ v, root.get? name = some v ∧ read v = .ok a := by
  unfold readSection at h
  obtain ⟨v, hv, hread⟩ := bind_eq_ok h
  exact ⟨v, demandField_eq_ok hv, hread⟩

/-- Each number of settings has been read in the section of its field. -/
theorem exists_yields_of_ofValue {settings : Settings} (h : ofValue root = .ok settings)
    {f : Field} {bits : Nat} (hbits : f.kind.bits? = some bits) :
    ∃ v, root.get? f.part.name = some v ∧ v.Yields f (settings.get f) := by
  unfold ofValue at h
  obtain ⟨server, hserver, h⟩ := bind_eq_ok h
  obtain ⟨stream, hstream, h⟩ := bind_eq_ok h
  obtain ⟨audio, haudio, h⟩ := bind_eq_ok h
  obtain ⟨recognizer, -, h⟩ := bind_eq_ok h
  obtain ⟨debug, -, h⟩ := bind_eq_ok h
  obtain rfl := Except.ok.inj h
  obtain ⟨v, hv, hserver⟩ := readSection_eq_ok hserver
  obtain ⟨w, hw, hstream⟩ := readSection_eq_ok hstream
  obtain ⟨x, hx, haudio⟩ := readSection_eq_ok haudio
  obtain ⟨hchannels, hwidth, hgate, hsilence, hpace, hrate⟩ := yields_audio haudio
  cases f with
  | port => exact ⟨v, hv, yields_port hserver⟩
  | reconnectDelayMs => exact ⟨w, hw, yields_reconnectDelayMs hstream⟩
  | channels => exact ⟨x, hx, hchannels⟩
  | bytesPerSample => exact ⟨x, hx, hwidth⟩
  | consumeGateBytes => exact ⟨x, hx, hgate⟩
  | silenceFrameSamples => exact ⟨x, hx, hsilence⟩
  | pacingIntervalMs => exact ⟨x, hx, hpace⟩
  | targetSampleRate => exact ⟨x, hx, hrate⟩
  | _ => cases hbits

end Sections

end SpeechRelay.Settings
