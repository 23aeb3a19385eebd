import JvmRoutes.Proofs.ClassFile.DecodeEscape

/-!
Where a class file ends. A class needs the bytes up to some place, without the last of which they
are truncated, and nothing behind that place is looked at.
-/
namespace JvmRoutes.ClassFile

variable {α β : Type}

namespace ByteReader

theorem truncated_u1 {offset : Nat} {bytes : List UInt8} (h : bytes.length < 1) :
    u1 ⟨offset, bytes⟩ = .error (.truncated offset) := by
  obtain rfl : bytes = [] := List.length_eq_zero_iff.1 (by omega)
  rfl

theorem truncated_u2 {offset : Nat} {bytes : List UInt8} (h : bytes.length < 2) :
    u2 ⟨offset, bytes⟩ = .error (.truncated offset) := by
  match bytes with
  | [] | [_] => rfl

theorem truncated_u4 {offset : Nat} {bytes : List UInt8} (h : bytes.length < 4) :
    u4 ⟨offset, bytes⟩ = .error (.truncated offset) := by
  match bytes with
  | [] | [_] | [_, _] | [_, _, _] => rfl

theorem truncated_take {offset size : Nat} {bytes : List UInt8} (h : bytes.length < size) :
    take size ⟨offset, bytes⟩ = .error (.truncated offset) := by
  have hne : (bytes.take size).length ≠ size := by
    rw [List.length_take]
    omega
  exact if_neg hne

/-- Bytes that stop inside those that the reader takes are truncated, at an offset that they
reach. -/
theorem IsSequence.truncated {r : ByteReader α} (h : r.IsSequence) {bytes cut : List UInt8} {a : α}
    (hr : r.Reads bytes a) (hc : cut <+: bytes) (hlt : cut.length < bytes.length) (offset : Nat) :
    ∃ place ≤ offset + cut.length, r ⟨offset, cut⟩ = .error (.truncated place) := by
  induction h generalizing bytes cut offset with
  | u1 =>
    obtain ⟨b, rfl, -⟩ := reads_u1_iff.1 hr
    exact ⟨offset, Nat.le_add_right _ _, truncated_u1 hlt⟩
  | u2 =>
    obtain ⟨i, rfl, -⟩ := reads_u2_iff.1 hr
    exact ⟨offset, Nat.le_add_right _ _, truncated_u2 hlt⟩
  | u4 =>
    obtain ⟨-, rfl⟩ := reads_u4_iff.1 hr
    exact ⟨offset, Nat.le_add_right _ _, truncated_u4 (by simpa using hlt)⟩
  | take size =>
    obtain ⟨rfl, -⟩ := reads_take_iff.1 hr
    exact ⟨offset, Nat.le_add_right _ _, truncated_take hlt⟩
  | lift x =>
    obtain ⟨rfl, -⟩ := reads_lift_iff.1 hr
    exact absurd hlt (Nat.not_lt_zero _)
  | @bind _ _ r g hsr hsg ihr ihg =>
    obtain ⟨front, back, a, rfl, hfront, hback⟩ :=
      (reads_bind_iff hsr.isLocal fun a => (hsg a).isLocal).1 hr
    change ∃ place ≤ _, (r ⟨offset, cut⟩ >>= fun p => g p.1 p.2) = _
    by_cases hf : cut.length < front.length
    · have hcut : cut <+: front :=
        List.prefix_of_prefix_length_le hc (List.prefix_append front back) hf.le
      obtain ⟨place, hle, herror⟩ := ihr hfront hcut hf offset
      refine ⟨place, hle, ?_⟩
      rw [herror]
      rfl
    · -- The first reader has all that it takes, and leaves the bytes short for the second.
      have hcut : front <+: cut :=
        List.prefix_of_prefix_length_le (List.prefix_append front back) hc (not_lt.1 hf)
      obtain ⟨rest, rfl⟩ := hcut
      have hrest : rest <+: back := (List.prefix_append_right_inj front).1 hc
      have hlt' : rest.length < back.length := by simpa using hlt
      obtain ⟨place, hle, herror⟩ := ihg a hback hrest hlt' (offset + front.length)
      refine ⟨place, ?_, ?_⟩
      · rw [List.length_append]
        omega
      · rw [hfront offset rest]
        exact herror

end ByteReader

namespace Decoder

/-- The decoder takes the bytes for the value and writes the messages on the way, wherever the bytes
stand and whatever follows them. -/
def Reads (d : Decoder α) (bytes : List UInt8) (messages : List Message) (a : α) : Prop :=
  ∀ offset rest, d ⟨offset, bytes ++ rest⟩ = ⟨messages, .ok (a, ⟨offset + bytes.length, rest⟩)⟩

theorem Reads.bind {d : Decoder α} {f : α → Decoder β} {front back : List UInt8}
    {messages others : List Message} {a : α} {b : β} (hd : d.Reads front messages a)
    (hf : (f a).Reads back others b) :
    (d >>= f).Reads (front ++ back) (messages ++ others) b := by
  intro offset rest
  have h := hd offset (back ++ rest)
  have h' := hf (offset + front.length) rest
  rw [List.append_assoc, List.length_append, ← Nat.add_assoc]
  change (d ⟨offset, front ++ (back ++ rest)⟩).andThen (fun p => f p.1 p.2) = _
  rw [h]
  simp only [Traced.andThen, h']

/-- What the decoder makes of bytes, and what it writes, depends on nothing but those that it
takes. -/
theorem IsSequence.exists_reads {d : Decoder α} (h : d.IsSequence) {c c' : Cursor} {a : α}
    (hd : (d c).result = .ok (a, c')) :
    ∃ bytes, c.rest = bytes ++ c'.rest ∧ d.Reads bytes (d c).messages a := by
  induction h generalizing c c' with
  | ofReader hr =>
    obtain ⟨bytes, hb, hreads⟩ := hr.isLocal c a c' hd
    refine ⟨bytes, hb, fun offset rest => ?_⟩
    exact congrArg Traced.ofExcept (hreads offset rest)
  | lift x =>
    obtain ⟨b, hb, hpure⟩ := bind_eq_ok_iff.1 ((Traced.result_andThen x _).symm.trans hd)
    cases hpure
    refine ⟨[], rfl, fun offset rest => ?_⟩
    change x.andThen _ = ⟨(x.andThen _).messages, _⟩
    simp only [Traced.andThen, hb]
    rfl
  | @bind _ _ d f _ _ ihd ihf =>
    obtain ⟨⟨b, c₁⟩, hb, hf⟩ :=
      bind_eq_ok_iff.1 ((Traced.result_andThen (d c) fun p => f p.1 p.2).symm.trans hd)
    obtain ⟨front, hfront, hreads⟩ := ihd hb
    obtain ⟨back, hback, hreads'⟩ := ihf b hf
    refine ⟨front ++ back, by rw [hfront, hback, List.append_assoc], ?_⟩
    have hmessages : ((d >>= f) c).messages = (d c).messages ++ (f b c₁).messages := by
      change ((d c).andThen fun p => f p.1 p.2).messages = _
      rw [Traced.andThen, hb]
    rw [hmessages]
    exact hreads.bind hreads'

end Decoder

theorem isSequence_methods (pool : ConstantPool) (owner : String) (count : Nat) :
    (methods pool owner count).IsSequence := by
  induction count with
  | zero => exact Decoder.isSequence_pure []
  | succ count ih =>
    exact (isSequence_method pool owner).bind fun _ => ih.bind fun _ => Decoder.isSequence_pure _

theorem isSequence_decoder (origin : String) : (decoder origin).IsSequence :=
  (Decoder.IsSequence.ofReader (isSequence_head origin)).bind fun h =>
    (Decoder.IsSequence.ofReader .u2).bind fun count =>
      (isSequence_methods h.pool h.name count).bind fun _ =>
        (Decoder.IsSequence.ofReader (isSequence_attributes h.pool)).bind fun _ =>
          (Decoder.IsSequence.lift _).bind fun _ => (Decoder.IsSequence.lift _).bind fun _ =>
            (Decoder.IsSequence.lift _).bind fun _ => (Decoder.IsSequence.lift _).bind fun _ =>
              Decoder.isSequence_pure _

theorem decode_append {origin : String} {bytes : List UInt8} {messages : List Message} {c : Class}
    (h : (decoder origin).Reads bytes messages c) (rest : List UInt8) :
    decode origin (bytes ++ rest) = ⟨messages, .ok c⟩ := by
  change (decoder origin ⟨0, bytes ++ rest⟩).andThen (fun p => Traced.ofExcept (.ok p.1)) = _
  rw [h 0 rest]
  simp only [Traced.andThen, Traced.ofExcept, List.append_nil]

/-- A class has an end in its bytes. Bytes that stop in front of it are truncated, and what stands
behind it is of no account, for the messages neither. -/
theorem decode_has_end {origin : String} {bytes : List UInt8} {c : Class}
    (h : (decode origin bytes).result = .ok c) :
    ∃ size ≤ bytes.length,
      (∀ cut < size, ∃ offset ≤ cut,
        (decode origin (bytes.take cut)).result = .error (.truncated offset)) ∧
      ∀ other : List UInt8, other.take size = bytes.take size →
        decode origin other = decode origin bytes := by
  obtain ⟨c', hc⟩ := decode_eq_ok.1 h
  obtain ⟨front, hfront, hreads⟩ := (isSequence_decoder origin).exists_reads hc
  obtain rfl : bytes = front ++ c'.rest := hfront
  have hsilent : (decoder origin).silent.Reads front c := by
    intro offset rest
    exact congrArg Traced.result (hreads offset rest)
  refine ⟨front.length, by simp, ?_, ?_⟩
  · intro cut hcut
    have hprefix : (front ++ c'.rest).take cut <+: front := by
      rw [List.take_append_of_le_length hcut.le]
      exact List.take_prefix cut front
    have hlen : ((front ++ c'.rest).take cut).length = cut := by
      rw [List.length_take, List.length_append]
      omega
    obtain ⟨offset, hle, herror⟩ :=
      (isSequence_decoder origin).silent.truncated hsilent hprefix (hlen.trans_lt hcut) 0
    refine ⟨offset, by omega, ?_⟩
    rw [result_decode, ByteReader.over, herror]
    rfl
  · intro other hother
    rw [List.take_left] at hother
    have hsplit : front ++ other.drop front.length = other := by
      have htake := List.take_append_drop front.length other
      rwa [hother] at htake
    rw [← hsplit, decode_append hreads, decode_append hreads]

/-- A class of the name A with nothing in it, and a byte behind it. -/
def trailingByte : List UInt8 :=
  [0xCA, 0xFE, 0xBA, 0xBE, 0, 0, 0, 52, 0, 3, 7, 0, 2, 1, 0, 1, 65, 0, 1, 0, 1, 0, 0, 0, 0, 0, 0,
    0, 0, 0, 0, 255]

theorem decode_has_end_trailingByte :
    (decode "A.class" trailingByte).result = .ok { name := "A", flags := 1 } ∧
    ∃ size ≤ trailingByte.length,
      (∀ cut < size, ∃ offset ≤ cut,
        (decode "A.class" (trailingByte.take cut)).result = .error (.truncated offset)) ∧
      ∀ other : List UInt8, other.take size = trailingByte.take size →
        decode "A.class" other = decode "A.class" trailingByte :=
  have h : (decode "A.class" trailingByte).result = .ok { name := "A", flags := 1 } := rfl
  ⟨h, decode_has_end h⟩

end JvmRoutes.ClassFile
