import DroneMini.Hal.Sil
import DroneMini.Plant.SilProto
import Mathlib.Tactic.FinCases

/-!
# One payload layout in two languages

The packed structures of `hal/sil_wire.hpp` and the format strings of `plant/sil_proto.py` lay out the same
items at the same offsets. A record is the concatenation of its items on both sides, so what one side packs
the other reads field by field (`codecs_agree`).
-/

namespace DroneMini

namespace Wire

open LittleEndian Struct

/-! ## Single fields -/

/-- A word of 32 bits is read back from its little-endian bytes. -/
theorem ofNat_leBytes32 (x : UInt32) : UInt32.ofNat (leNat (leBytes 4 x.toNat)) = x := by
  rw [leNat_leBytes (UInt32.toNat_lt x), UInt32.ofNat_toNat]

/-- A time of 64 bits is read back from its little-endian bytes. -/
theorem ofNat_leBytes64 (x : UInt64) : UInt64.ofNat (leNat (leBytes 8 x.toNat)) = x := by
  rw [leNat_leBytes (UInt64.toNat_lt x), UInt64.ofNat_toNat]

/-- A field of one byte is the byte of the list at its offset. -/
theorem ofNat_field_byte (bs : List UInt8) (i : Nat) : UInt8.ofNat (field bs i 1) = bs.getD i 0 := by
  rw [field, List.getD_eq_getElem?_getD]
  cases h : bs[i]? with
  | none =>
      rw [List.drop_eq_nil_of_le (List.getElem?_eq_none_iff.mp h)]
      rfl
  | some b =>
      obtain ⟨hi, rfl⟩ := List.getElem?_eq_some_iff.mp h
      rw [List.drop_eq_getElem_cons hi, List.take_succ_cons, List.take_zero]
      exact UInt8.ofNat_toNat

/-! ## States -/

/-- The items of a state, as the plant packs them. -/
def stateItems (st : StateRc) (valid : Bool) (rcPadded : List UInt8) :
    List (Code × Value × List UInt8) :=
  let f (x : UInt32) : Code × Value × List UInt8 := (.f32, .float x, leBytes 4 x.toNat)
  [f (st.imu.gyroRps 0), f (st.imu.gyroRps 1), f (st.imu.gyroRps 2),
    f (st.imu.accelMps2 0), f (st.imu.accelMps2 1), f (st.imu.accelMps2 2),
    f (st.imu.magUT 0), f (st.imu.magUT 1), f (st.imu.magUT 2), f st.imu.tempC,
    (.u64, .int st.imu.tUs.toNat, leBytes 8 st.imu.tUs.toNat),
    (.bool, .int (if valid then 1 else 0), [if valid then 1 else 0]),
    f st.vbat, (.u8, .int st.rcProto.toNat, [st.rcProto]),
    (.u8, .int st.rcLen.toNat, [st.rcLen]), (.bytes 32, .bytes rcPadded, rcPadded)]

/-- The bytes of a state, as the plant packs them. -/
def stateRecord (st : StateRc) (valid : Bool) (rcPadded : List UInt8) : List UInt8 :=
  ((stateItems st valid rcPadded).map fun t => t.2.2).flatten

/-- The lengths of the items of a state, with `n` bytes of RC data. -/
def stateLens (n : Nat) : List Nat := [4, 4, 4, 4, 4, 4, 4, 4, 4, 4, 8, 1, 4, 1, 1, n]

/-- **A packed STATE payload is read back field by field**, with the flag as a byte and the RC bytes padded to
32. -/
theorem ofBytes_stateRecord (st : StateRc) (valid : Bool) (rcPadded : List UInt8)
    (hvalid : st.imu.valid = if valid then 1 else 0)
    (hraw : ∀ i : Fin 32, rcPadded.getD i 0 = st.rcRaw i) :
    StateRc.ofBytes (stateRecord st valid rcPadded) = st := by
  let bs := (stateItems st valid rcPadded).map fun t => t.2.2
  have hlens : bs.map List.length = stateLens rcPadded.length := by simp [bs, stateItems, stateLens]
  have hword : ∀ (k offset : Nat) (x : UInt32), bs[k]? = some (leBytes 4 x.toNat) →
      ((stateLens rcPadded.length).take k).sum = offset → (stateLens rcPadded.length)[k]? = some 4 →
      UInt32.ofNat (field bs.flatten offset 4) = x := by
    intro k offset x hx ho hw
    rw [field_flatten hlens hx ho hw, ofNat_leBytes32]
  have hbyte : ∀ (k offset : Nat) (x : UInt8), bs[k]? = some [x] →
      ((stateLens rcPadded.length).take k).sum = offset → (stateLens rcPadded.length)[k]? = some 1 →
      UInt8.ofNat (field bs.flatten offset 1) = x := by
    intro k offset x hx ho hw
    rw [field_flatten hlens hx ho hw]
    exact UInt8.ofNat_toNat
  have htime : UInt64.ofNat (field bs.flatten 40 8) = st.imu.tUs :=
    (congrArg UInt64.ofNat (field_flatten hlens (k := 10) rfl (by simp [stateLens]) rfl)).trans
      (ofNat_leBytes64 _)
  have htail : ∀ i : Fin 32, UInt8.ofNat (field bs.flatten (55 + i) 1) = st.rcRaw i := by
    intro i
    have hfront : (bs.take 15).flatten.length = 55 := by
      rw [List.length_flatten, List.map_take, hlens]
      simp [stateLens]
    have hsplit : bs.flatten = (bs.take 15).flatten ++ rcPadded := by
      rw [← List.take_append_drop 15 bs, List.flatten_append, List.take_append_drop]
      exact congrArg _ (List.append_nil rcPadded)
    rw [← hraw i, ← ofNat_field_byte, field, field, ← List.drop_drop, hsplit, List.drop_left' hfront]
  show StateRc.ofBytes bs.flatten = st
  obtain ⟨⟨gyro, accel, mag, tempC, tUs, valid'⟩, vbat, rcProto, rcLen, rcRaw⟩ := st
  rw [StateRc.ofBytes, StateRc.mk.injEq, SilImu.mk.injEq]
  refine ⟨⟨?_, ?_, ?_, ?_, htime, ?_⟩, ?_, ?_, ?_, funext htail⟩
  · funext i
    fin_cases i
    · exact hword 0 0 _ rfl (by simp [stateLens]) rfl
    · exact hword 1 4 _ rfl (by simp [stateLens]) rfl
    · exact hword 2 8 _ rfl (by simp [stateLens]) rfl
  · funext i
    fin_cases i
    · exact hword 3 12 _ rfl (by simp [stateLens]) rfl
    · exact hword 4 16 _ rfl (by simp [stateLens]) rfl
    · exact hword 5 20 _ rfl (by simp [stateLens]) rfl
  · funext i
    fin_cases i
    · exact hword 6 24 _ rfl (by simp [stateLens]) rfl
    · exact hword 7 28 _ rfl (by simp [stateLens]) rfl
    · exact hword 8 32 _ rfl (by simp [stateLens]) rfl
  · exact hword 9 36 _ rfl (by simp [stateLens]) rfl
  · exact (hbyte 11 48 _ rfl (by simp [stateLens]) rfl).trans hvalid.symm
  · exact hword 12 49 _ rfl (by simp [stateLens]) rfl
  · exact hbyte 13 53 _ rfl (by simp [stateLens]) rfl
  · exact hbyte 14 54 _ rfl (by simp [stateLens]) rfl

/-- The RC bytes of a state, cut or padded to 32. -/
def rcPadded (rcRaw : List UInt8) : List UInt8 :=
  rcRaw.take 32 ++ List.replicate (32 - (rcRaw.take 32).length) 0

@[simp] theorem length_rcPadded (rcRaw : List UInt8) : (rcPadded rcRaw).length = 32 := by
  rw [rcPadded, List.length_append, List.length_replicate, List.length_take]
  omega

/-- The padded bytes are the RC bytes, and zeros behind them. -/
theorem getD_rcPadded (rcRaw : List UInt8) {i : Nat} (hi : i < 32) :
    (rcPadded rcRaw).getD i 0 = rcRaw.getD i 0 := by
  rw [rcPadded, List.getD_eq_getElem?_getD, List.getD_eq_getElem?_getD]
  by_cases hlt : i < (rcRaw.take 32).length
  · rw [List.getElem?_append_left hlt, List.getElem?_take_of_lt hi]
  · have hle : rcRaw.length ≤ i := by
      rw [List.length_take] at hlt
      omega
    rw [List.getElem?_append_right (by omega), List.getElem?_replicate, List.getElem?_eq_none hle]
    split_ifs <;> rfl

/-- The STATE payload that the plant packs from its values, with the RC bytes cut to 32 and padded with
zeros. -/
def stateOf (tUs : UInt64) (gyroRps accelMps2 magUT : Fin 3 → UInt32) (tempC : UInt32) (valid : Bool)
    (vbat : UInt32) (rcProto : UInt8) (rcRaw : List UInt8) : StateRc where
  imu := ⟨gyroRps, accelMps2, magUT, tempC, tUs, if valid then 1 else 0⟩
  vbat := vbat
  rcProto := rcProto
  rcLen := .ofNat rcRaw.length
  rcRaw := fun i => rcRaw.getD i 0

/-- `pack_state` writes the bytes of the payload `stateOf`, item by item of its format string. -/
theorem packState_eq (tUs : UInt64) (gyroRps accelMps2 magUT : Fin 3 → UInt32) (tempC : UInt32)
    (valid : Bool) (vbat : UInt32) (rcProto : UInt8) {rcRaw : List UInt8} (hlen : rcRaw.length ≤ 255) :
    SilProto.packState tUs.toNat gyroRps accelMps2 magUT tempC valid vbat rcProto.toNat rcRaw
      = some (stateRecord (stateOf tUs gyroRps accelMps2 magUT tempC valid vbat rcProto rcRaw) valid
          (rcPadded rcRaw)) := by
  have hrcLen : (UInt8.ofNat rcRaw.length).toNat = rcRaw.length :=
    UInt8.toNat_ofNat_of_lt' (show rcRaw.length < 256 by omega)
  have hbyte : ∀ b : UInt8, Code.u8.pack (.int b.toNat) = some [b] := by
    intro b
    exact (packUnsigned_natCast b.toNat_lt).trans (congrArg some (leBytes_leNat [b]))
  have hpad : (Code.bytes 32).pack (.bytes (rcPadded rcRaw)) = some (rcPadded rcRaw) := by
    rw [Code.pack, length_rcPadded, List.take_of_length_le (length_rcPadded rcRaw).le]
    simp
  rw [SilProto.packState, ← hrcLen]
  refine pack_eq_flatten (stateItems
    (stateOf tUs gyroRps accelMps2 magUT tempC valid vbat rcProto rcRaw) valid (rcPadded rcRaw)) ?_
  have htime := packUnsigned_natCast (show tUs.toNat < 256 ^ 8 from tUs.toNat_lt)
  have hvalid : Code.bool.pack (.int (if valid then 1 else 0)) = some [if valid then 1 else 0] := by
    cases valid <;> rfl
  simp only [stateItems, List.forall_mem_cons, List.not_mem_nil, false_imp_iff, implies_true, and_true]
  exact ⟨rfl, rfl, rfl, rfl, rfl, rfl, rfl, rfl, rfl, rfl, htime, hvalid, rfl, hbyte _, hbyte _, hpad⟩

/-- The firmware reads the first 32 of the RC bytes that the plant sent, and all of them if there are no
more. -/
theorem rcRawRead_eq {K : Type} {hal : SilHal K} {rcRaw : List UInt8} (hlen : rcRaw.length ≤ 255)
    (hrcLen : hal.state.rcLen = .ofNat rcRaw.length)
    (hraw : hal.state.rcRaw = fun i : Fin 32 => rcRaw.getD i 0) :
    hal.rcRawRead 64 = rcRaw.take (min 32 rcRaw.length) := by
  have hn : (UInt8.ofNat rcRaw.length).toNat = rcRaw.length :=
    UInt8.toNat_ofNat_of_lt' (show rcRaw.length < 256 by omega)
  have hmin : (if 32 < if 64 < rcRaw.length then 64 else rcRaw.length then 32
      else if 64 < rcRaw.length then 64 else rcRaw.length) = min 32 rcRaw.length := by
    split_ifs <;> omega
  rw [SilHal.rcRawRead, hrcLen, hraw]
  simp only [hn, hmin]
  apply List.ext_getElem?
  intro i
  by_cases hi : i < min 32 rcRaw.length
  · have hlt : i < rcRaw.length := by omega
    rw [List.getElem?_take_of_lt hi, List.getElem?_take_of_lt hi, List.getElem?_ofFn,
      dif_pos (by omega), List.getD_eq_getElem?_getD, List.getElem?_eq_getElem hlt, Option.getD_some]
  · rw [List.getElem?_take_eq_none (by omega), List.getElem?_take_eq_none (by omega)]

/-! ## Replies -/

/-- The items of a reply, as the plant packs them. -/
def outItems (o : SilOut UInt32) : List (Code × Value × List UInt8) :=
  let f (x : UInt32) : Code × Value × List UInt8 := (.f32, .float x, leBytes 4 x.toNat)
  let b (x : UInt8) : Code × Value × List UInt8 := (.u8, .int x.toNat, [x])
  [f (o.mot 0), f (o.mot 1), f (o.mot 2), f (o.mot 3), f o.rollEst, f o.pitchEst, f o.yawEst,
    b o.armed, b o.failsafe, b o.ledMode, b o.imuValid,
    (.u32, .int o.tick.toNat, leBytes 4 o.tick.toNat), f o.satShift]

/-- The lengths of the items of a reply, in the order of its format string. -/
def outLens : List Nat := [4, 4, 4, 4, 4, 4, 4, 1, 1, 1, 1, 4, 4]

/-- The bytes of a reply are those of its items, one behind the other. -/
theorem outBytes_eq_flatten (o : SilOut UInt32) :
    o.bytes = ((outItems o).map fun t => t.2.2).flatten := by
  simp [SilOut.bytes, outItems, List.finRange_succ]

/-- **A packed reply is read back field by field** on the firmware's side. -/
theorem ofBytes_outBytes (o : SilOut UInt32) : SilOut.ofBytes o.bytes = o := by
  let bs := (outItems o).map fun t => t.2.2
  have hlens : bs.map List.length = outLens := by simp [bs, outItems, outLens]
  have hword : ∀ (k offset : Nat) (x : UInt32), bs[k]? = some (leBytes 4 x.toNat) →
      (outLens.take k).sum = offset → outLens[k]? = some 4 →
      UInt32.ofNat (field bs.flatten offset 4) = x := by
    intro k offset x hx ho hw
    rw [field_flatten hlens hx ho hw, ofNat_leBytes32]
  have hbyte : ∀ (k offset : Nat) (x : UInt8), bs[k]? = some [x] →
      (outLens.take k).sum = offset → outLens[k]? = some 1 →
      UInt8.ofNat (field bs.flatten offset 1) = x := by
    intro k offset x hx ho hw
    rw [field_flatten hlens hx ho hw]
    exact UInt8.ofNat_toNat
  rw [outBytes_eq_flatten]
  show SilOut.ofBytes bs.flatten = o
  obtain ⟨mot, rollEst, pitchEst, yawEst, armed, failsafe, ledMode, imuValid, tick, satShift⟩ := o
  rw [SilOut.ofBytes, SilOut.mk.injEq]
  refine ⟨?_, ?_, ?_, ?_, ?_, ?_, ?_, ?_, ?_, ?_⟩
  · funext i
    fin_cases i
    · exact hword 0 0 _ rfl (by decide) rfl
    · exact hword 1 4 _ rfl (by decide) rfl
    · exact hword 2 8 _ rfl (by decide) rfl
    · exact hword 3 12 _ rfl (by decide) rfl
  · exact hword 4 16 _ rfl (by decide) rfl
  · exact hword 5 20 _ rfl (by decide) rfl
  · exact hword 6 24 _ rfl (by decide) rfl
  · exact hbyte 7 28 _ rfl (by decide) rfl
  · exact hbyte 8 29 _ rfl (by decide) rfl
  · exact hbyte 9 30 _ rfl (by decide) rfl
  · exact hbyte 10 31 _ rfl (by decide) rfl
  · exact hword 11 32 _ rfl (by decide) rfl
  · exact hword 12 36 _ rfl (by decide) rfl

/-- The dictionary of a reply: the names that `unpack_out` gives its items, with their values. -/
def outDict (o : SilOut UInt32) : SilProto.OutDict where
  mot := [.float (o.mot 0), .float (o.mot 1), .float (o.mot 2), .float (o.mot 3)]
  rollEst := .float o.rollEst
  pitchEst := .float o.pitchEst
  yawEst := .float o.yawEst
  armed := .int o.armed.toNat
  failsafe := .int o.failsafe.toNat
  ledMode := .int o.ledMode.toNat
  imuValid := .int o.imuValid.toNat
  tick := .int o.tick.toNat
  satShift := .float o.satShift

/-- `unpack_out` makes of the bytes of a reply the dictionary of that reply. -/
theorem unpackOut_outBytes (o : SilOut UInt32) : SilProto.unpackOut o.bytes = some (outDict o) := by
  have hsizes : ∀ t ∈ (outItems o).map (fun t => (t.1, t.2.2)), t.2.length = t.1.size := by
    simp [outItems, Code.size]
  have hvalues : ((outItems o).map fun t => (t.1, t.2.2)).map (fun t => t.1.unpack t.2)
      = (outItems o).map fun t => t.2.1 := by
    have hword : ∀ x : UInt32, Code.f32.unpack (leBytes 4 x.toNat) = .float x :=
      fun x => congrArg Value.float (ofNat_leBytes32 x)
    have htick : Code.u32.unpack (leBytes 4 o.tick.toNat) = .int o.tick.toNat :=
      congrArg (fun n : Nat => Value.int n) (leNat_leBytes o.tick.toNat_lt)
    have hbyte : ∀ x : UInt8, Code.u8.unpack [x] = .int x.toNat := fun x => rfl
    simp only [outItems, List.map_cons, List.map_nil, hword, htick, hbyte]
  have hunpack : unpack SilProto.FW_OUT_FMT ((outItems o).map fun t => t.2.2).flatten
      = some ((outItems o).map fun t => t.2.1) :=
    (unpack_flatten _ hsizes).trans (congrArg some hvalues)
  rw [SilProto.unpackOut, outBytes_eq_flatten, hunpack]
  rfl

/-- The plant packs a reply to the bytes of the firmware. -/
theorem packOut_eq (o : SilOut UInt32) :
    SilProto.packOut o.mot o.rollEst o.pitchEst o.yawEst o.armed.toNat o.failsafe.toNat
      o.ledMode.toNat o.imuValid.toNat o.tick.toNat o.satShift = some o.bytes := by
  have hbyte : ∀ b : UInt8, Code.u8.pack (.int b.toNat) = some [b] := by
    intro b
    exact (packUnsigned_natCast b.toNat_lt).trans (congrArg some (leBytes_leNat [b]))
  have htick := packUnsigned_natCast (show o.tick.toNat < 256 ^ 4 from o.tick.toNat_lt)
  rw [outBytes_eq_flatten]
  refine pack_eq_flatten (outItems o) ?_
  simp only [outItems, List.forall_mem_cons, List.not_mem_nil, false_imp_iff, implies_true, and_true]
  exact ⟨rfl, rfl, rfl, rfl, rfl, rfl, rfl, hbyte _, hbyte _, hbyte _, hbyte _, htick, rfl⟩

/-- **The payload codecs agree.** The firmware reads every field of a state the plant packs, and of its RC
bytes the first 32; the plant reads every field of a reply the firmware packs, and packs a reply the
firmware reads back. -/
theorem codecs_agree {K : Type} :
    (∀ (tUs : UInt64) (gyroRps accelMps2 magUT : Fin 3 → UInt32) (tempC : UInt32) (valid : Bool)
      (vbat : UInt32) (rcProto : UInt8) (rcRaw : List UInt8), rcRaw.length ≤ 255 →
      ∃ bytes, SilProto.packState tUs.toNat gyroRps accelMps2 magUT tempC valid vbat rcProto.toNat rcRaw
          = some bytes ∧
        bytes.length = StateRc.size ∧
        StateRc.ofBytes bytes
          = { imu := ⟨gyroRps, accelMps2, magUT, tempC, tUs, if valid then 1 else 0⟩
              vbat := vbat
              rcProto := rcProto
              rcLen := .ofNat rcRaw.length
              rcRaw := fun i => rcRaw.getD i 0 } ∧
        ∀ hal : SilHal K, hal.state = StateRc.ofBytes bytes →
          hal.rcRawRead 64 = rcRaw.take (min 32 rcRaw.length)) ∧
    (∀ o : SilOut UInt32, o.bytes.length = SilOut.size ∧
      SilProto.unpackOut o.bytes = some
        { mot := [.float (o.mot 0), .float (o.mot 1), .float (o.mot 2), .float (o.mot 3)]
          rollEst := .float o.rollEst
          pitchEst := .float o.pitchEst
          yawEst := .float o.yawEst
          armed := .int o.armed.toNat
          failsafe := .int o.failsafe.toNat
          ledMode := .int o.ledMode.toNat
          imuValid := .int o.imuValid.toNat
          tick := .int o.tick.toNat
          satShift := .float o.satShift }) ∧
    (∀ o : SilOut UInt32,
      ∃ bytes, SilProto.packOut o.mot o.rollEst o.pitchEst o.yawEst o.armed.toNat o.failsafe.toNat
          o.ledMode.toNat o.imuValid.toNat o.tick.toNat o.satShift = some bytes ∧
        SilOut.ofBytes bytes = o) := by
  refine ⟨?_, ?_, ?_⟩
  · intro tUs gyroRps accelMps2 magUT tempC valid vbat rcProto rcRaw hlen
    have hread := ofBytes_stateRecord
      (stateOf tUs gyroRps accelMps2 magUT tempC valid vbat rcProto rcRaw) valid (rcPadded rcRaw) rfl
      fun i => getD_rcPadded rcRaw i.isLt
    refine ⟨_, packState_eq tUs gyroRps accelMps2 magUT tempC valid vbat rcProto hlen, ?_, hread, ?_⟩
    · simp [stateRecord, stateItems, StateRc.size]
    · intro hal hhal
      rw [hread] at hhal
      exact rcRawRead_eq hlen (by rw [hhal]; rfl) (by rw [hhal]; rfl)
  · intro o
    refine ⟨?_, unpackOut_outBytes o⟩
    simp [outBytes_eq_flatten, outItems, SilOut.size]
  · intro o
    exact ⟨o.bytes, packOut_eq o, ofBytes_outBytes o⟩

/-- Of forty RC bytes that the plant is given, the firmware reads the first 32. -/
theorem codecs_agree_cut :
    ∃ bytes, SilProto.packState 1000 (fun _ => 0) (fun _ => 0) (fun _ => 0) 0 true 0 0
        (List.replicate 40 7) = some bytes ∧
      ∀ hal : SilHal ℚ, hal.state = StateRc.ofBytes bytes →
        hal.rcRawRead 64 = List.replicate 32 7 := by
  obtain ⟨bytes, hpack, -, -, hread⟩ :=
    (codecs_agree (K := ℚ)).1 1000 (fun _ => 0) (fun _ => 0) (fun _ => 0) 0 true 0 0 (List.replicate 40 7)
      (by decide)
  exact ⟨bytes, hpack, fun hal hhal => (hread hal hhal).trans (by decide)⟩

end Wire

end DroneMini
