import LightShow.Show.Event

namespace LightShow

/-!
# The records of events

* `Event.lowBytes_ofLowBytes` — bytes are the low bytes of the number that they spell;
* `Event.ofRecords?_append`, `Event.record_ofBytes` — one record is read as its event, and ten bytes
  are the record of the event that they are read as;
* `Event.ofBytes_bijective` — every list of events comes back from its records, and every stream of
  whole records is the stream of exactly the events that are read from it.
-/

namespace Event

/-! ### Numbers as bytes -/

/-- Bytes spell a number that has no further bytes. -/
theorem ofLowBytes_lt (bytes : List UInt8) : ofLowBytes bytes < Nat.pow 256 bytes.length := by
  induction bytes with
  | nil => decide
  | cons b bytes ih =>
    have hb : b.toNat < 256 := b.toNat_lt
    have hvalue : ofLowBytes (b :: bytes) = b.toNat + 256 * ofLowBytes bytes := rfl
    have hplace : Nat.pow 256 (b :: bytes).length = Nat.pow 256 bytes.length * 256 := rfl
    omega

/-- Bytes are the low bytes of the number that they spell. -/
theorem lowBytes_ofLowBytes (bytes : List UInt8) :
    lowBytes bytes.length (ofLowBytes bytes) = bytes := by
  induction bytes with
  | nil => rfl
  | cons b bytes ih =>
    have hb : b.toNat < 256 := b.toNat_lt
    have hvalue : ofLowBytes (b :: bytes) = b.toNat + 256 * ofLowBytes bytes := rfl
    have hrest : ofLowBytes (b :: bytes) / 256 = ofLowBytes bytes := by omega
    have hlow : (ofLowBytes (b :: bytes)).toUInt8 = b := by
      apply UInt8.toNat_inj.mp
      rw [Nat.toUInt8, UInt8.toNat_ofNat']
      omega
    rw [List.length_cons, lowBytes, hrest, hlow, ih]

/-! ### One record -/

/-- A record in front of others is read as its event. -/
theorem ofRecords?_append (e : Event) (rest : List UInt8) :
    ofRecords? (e.record ++ rest) = (ofRecords? rest).map (e :: ·) := by
  have htime : UInt32.ofNat (ofLowBytes (lowBytes 4 e.time.toNat)) = e.time := by
    apply UInt32.toNat_inj.mp
    rw [ofLowBytes_lowBytes, UInt32.toNat_ofNat', Nat.mod_mod]
    exact Nat.mod_eq_of_lt e.time.toNat_lt
  have hled : UInt16.ofNat (ofLowBytes (lowBytes 2 e.led.toNat)) = e.led := by
    apply UInt16.toNat_inj.mp
    rw [ofLowBytes_lowBytes, UInt16.toNat_ofNat', Nat.mod_mod]
    exact Nat.mod_eq_of_lt e.led.toNat_lt
  show (ofRecords? rest).map (⟨UInt32.ofNat (ofLowBytes (lowBytes 4 e.time.toNat)), e.suit,
    UInt16.ofNat (ofLowBytes (lowBytes 2 e.led.toNat)), e.color⟩ :: ·) = _
  rw [htime, hled]

/-- Ten bytes are the record of the event that they are read as. -/
theorem record_ofBytes (t₀ t₁ t₂ t₃ suit l₀ l₁ red green blue : UInt8) :
    record ⟨UInt32.ofNat (ofLowBytes [t₀, t₁, t₂, t₃]), suit, UInt16.ofNat (ofLowBytes [l₀, l₁]),
      ⟨red, green, blue⟩⟩ = [t₀, t₁, t₂, t₃, suit, l₀, l₁, red, green, blue] := by
  have hfour : ofLowBytes [t₀, t₁, t₂, t₃] < Nat.pow 256 4 := ofLowBytes_lt _
  have htwo : ofLowBytes [l₀, l₁] < Nat.pow 256 2 := ofLowBytes_lt _
  have htime : (UInt32.ofNat (ofLowBytes [t₀, t₁, t₂, t₃])).toNat
      = ofLowBytes [t₀, t₁, t₂, t₃] := by
    rw [UInt32.toNat_ofNat', Nat.mod_eq_of_lt (by simpa using hfour)]
  have hled : (UInt16.ofNat (ofLowBytes [l₀, l₁])).toNat = ofLowBytes [l₀, l₁] := by
    rw [UInt16.toNat_ofNat', Nat.mod_eq_of_lt (by simpa using htwo)]
  have htimes : lowBytes 4 (ofLowBytes [t₀, t₁, t₂, t₃]) = [t₀, t₁, t₂, t₃] :=
    lowBytes_ofLowBytes [t₀, t₁, t₂, t₃]
  have hleds : lowBytes 2 (ofLowBytes [l₀, l₁]) = [l₀, l₁] := lowBytes_ofLowBytes [l₀, l₁]
  unfold record
  dsimp only
  rw [htime, hled, htimes, hleds]
  rfl

/-- A stream that is not shorter than a record begins with one. -/
theorem exists_record_append {stream : List UInt8} (h : recordLength ≤ stream.length) :
    ∃ (e : Event) (rest : List UInt8), stream = e.record ++ rest := by
  match stream, h with
  | t₀ :: t₁ :: t₂ :: t₃ :: suit :: l₀ :: l₁ :: red :: green :: blue :: rest, _ =>
    exact ⟨_, rest, congrArg (· ++ rest) (record_ofBytes ..).symm⟩

/-! ### Streams of records -/

/-- The records of events are read as these events. -/
theorem ofRecords?_bytes (events : List Event) : ofRecords? (bytes events) = some events := by
  induction events with
  | nil => rfl
  | cons e events ih =>
    have hbytes : bytes (e :: events) = e.record ++ bytes events := rfl
    rw [hbytes, ofRecords?_append, ih]
    rfl

/-- A stream is the records of the events that are read from it. -/
theorem bytes_of_ofRecords? {stream : List UInt8} {events : List Event}
    (h : ofRecords? stream = some events) : bytes events = stream := by
  fun_induction ofRecords? stream generalizing events with
  | case1 =>
    rw [← Option.some.inj h]
    rfl
  | case2 t₀ t₁ t₂ t₃ suit l₀ l₁ red green blue rest ih =>
    obtain ⟨decoded, hdecoded, rfl⟩ := Option.map_eq_some_iff.mp h
    have hbytes : ∀ e : Event, bytes (e :: decoded) = e.record ++ bytes decoded := fun _ => rfl
    rw [hbytes, record_ofBytes, ih hdecoded]
    rfl
  | case3 => exact nomatch h

/-- There are events in a stream if and only if it is made of whole records. -/
theorem isSome_ofRecords? (stream : List UInt8) :
    (ofRecords? stream).isSome = true ↔ recordLength ∣ stream.length := by
  fun_induction ofRecords? stream with
  | case1 => decide
  | case2 t₀ t₁ t₂ t₃ suit l₀ l₁ red green blue rest ih =>
    have hlength : (t₀ :: t₁ :: t₂ :: t₃ :: suit :: l₀ :: l₁ :: red :: green :: blue :: rest).length
        = rest.length + recordLength := rfl
    rw [Option.isSome_map, ih, hlength, Nat.dvd_add_left (Nat.dvd_refl recordLength)]
  | case3 stream hempty hrecord =>
    -- a stream that is not empty and does not begin with a record is shorter than one
    have hpositive : 0 < stream.length := List.length_pos_iff.mpr hempty
    have hshort : stream.length < recordLength := by
      refine Nat.lt_of_not_le fun hlong => ?_
      obtain ⟨e, rest, hstream⟩ := exists_record_append hlong
      exact hrecord _ _ _ _ _ _ _ _ _ _ rest hstream
    have hbroken : ¬ recordLength ∣ stream.length := Nat.not_dvd_of_pos_of_lt hpositive hshort
    simpa using hbroken

/-- Events are read back from their records. -/
theorem ofBytes_bytes (events : List Event) : ofBytes (bytes events) = .ok events := by
  rw [ofBytes, ofRecords?_bytes]

/-- **Records are exact.** Events are read back from their records. A stream of bytes is refused
    with its length if it ends inside of a record, and else it is the stream of the events that are
    read from it. -/
theorem ofBytes_bijective (events : List Event) (stream : List UInt8) :
    ofBytes (bytes events) = .ok events
      ∧ (¬ recordLength ∣ stream.length →
          ofBytes stream = .error (.invalid (.brokenRecord stream.length)))
      ∧ (recordLength ∣ stream.length →
          ∃ decoded, ofBytes stream = .ok decoded ∧ bytes decoded = stream) := by
  refine ⟨ofBytes_bytes events, fun hbroken => ?_, fun hwhole => ?_⟩
  · have hnone : ofRecords? stream = none := by
      rwa [← isSome_ofRecords?, Option.not_isSome_iff_eq_none] at hbroken
    rw [ofBytes, hnone]
  · obtain ⟨decoded, hdecoded⟩ :=
      Option.isSome_iff_exists.mp ((isSome_ofRecords? stream).mpr hwhole)
    refine ⟨decoded, ?_, bytes_of_ofRecords? hdecoded⟩
    rw [ofBytes, hdecoded]

/-- Two records of the greatest and of other numbers, and a stream that ends inside of its second
    record. -/
theorem ofBytes_two_records :
    (∃ decoded, ofBytes [4, 3, 2, 1, 7, 1, 2, 10, 20, 30,
        255, 255, 255, 255, 255, 255, 255, 255, 255, 255] = .ok decoded
      ∧ bytes decoded = [4, 3, 2, 1, 7, 1, 2, 10, 20, 30,
        255, 255, 255, 255, 255, 255, 255, 255, 255, 255])
    ∧ ofBytes (List.replicate 15 0) = .error (.invalid (.brokenRecord 15)) :=
  ⟨(ofBytes_bijective [] _).2.2 (by decide),
    (ofBytes_bijective [] (List.replicate 15 0)).2.1 (by decide)⟩

end Event

end LightShow
