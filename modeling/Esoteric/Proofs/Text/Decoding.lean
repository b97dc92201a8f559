import Esoteric.Proofs.Text.LineEnd

/-! A program that is decoded is the text it encodes, with its line ends made alike. -/

namespace Esoteric

namespace Newline

variable {ending rest text : List Char}

def endings : List (List Char) :=
  [['\n'], ['\r', '\n'], ['\r']]

def withEndings (ending text : List Char) : List Char :=
  text.flatMap fun c => if c = '\n' then ending else [c]

theorem translate_ending_append (known : ending ∈ endings)
    (separate : ending = ['\r'] → rest.head? ≠ some '\n') :
    translate (ending ++ rest) = '\n' :: translate rest := by
  simp only [endings, List.mem_cons, List.not_mem_nil, or_false] at known
  rcases known with rfl | rfl | rfl
  · exact Lines.translate_cons_of_ends rfl fun _ => nofun
  · rfl
  · apply Lines.translate_cons_of_ends rfl
    rintro later - rfl
    exact separate rfl rfl

theorem head?_withEndings_return (text : List Char) :
    (withEndings ['\r'] text).head? ≠ some '\n' := by
  cases text with
  | nil => exact nofun
  | cons c text =>
      rw [withEndings, List.flatMap_cons]
      split
      · exact nofun
      · rename_i ordinary
        intro same
        exact ordinary (Option.some.inj same)

theorem translate_withEndings (known : ending ∈ endings)
    (plain : '\r' ∉ text) : translate (withEndings ending text) = text := by
  induction text with
  | nil => rfl
  | cons c text induction =>
      have notReturn := List.ne_of_not_mem_cons plain
      have remaining := induction (List.not_mem_of_not_mem_cons plain)
      rw [withEndings, List.flatMap_cons]
      change translate (_ ++ withEndings ending text) = c :: text
      split
      · rename_i ends
        rw [translate_ending_append known, remaining, ends]
        rintro rfl
        exact head?_withEndings_return text
      · rename_i inside
        have ordinary : ¬ Lines.endsLine c = true := by
          simp [Lines.endsLine, notReturn.symm, inside]
        rw [List.singleton_append, Lines.translate_cons_of_ordinary ordinary,
          remaining]

end Newline

namespace Encoding

variable {encoding : Encoding} {bytes : List UInt8} {text : List Char}

/-- The bytes of a text, unless the encoding lacks one of its characters. -/
def encode? : Encoding → List Char → Option (List UInt8)
  | utf8, text => some (text.flatMap String.utf8EncodeChar)
  | latin1, text =>
      if text.all fun c => c.toNat < 0x100 then
        some (text.map fun c => UInt8.ofNat c.toNat)
      else
        none

theorem fromUTF8?_eq_some_iff {array : ByteArray} {whole : String} :
    String.fromUTF8? array = some whole ↔ whole.toByteArray = array := by
  rw [String.fromUTF8?]
  split
  · rename_i valid
    rw [Option.some.injEq, ← String.toByteArray_inj]
    exact eq_comm
  · rename_i invalid
    constructor
    · intro found
      contradiction
    · rintro rfl
      exact absurd whole.isValidUTF8 invalid

theorem utf8_decode_eq_some_iff :
    utf8.decode bytes = some text ↔ utf8.encode? text = some bytes := by
  have encoded : (String.ofList text).toByteArray =
      (text.flatMap String.utf8EncodeChar).toByteArray :=
    String.toByteArray_ofList
  rw [decode, encode?, Option.some.injEq, Option.map_eq_some_iff]
  constructor
  · rintro ⟨whole, found, rfl⟩
    rw [String.ofList_toList, fromUTF8?_eq_some_iff.1 found] at encoded
    have same := congrArg (fun array => array.data.toList) encoded
    simpa only [List.data_toByteArray] using same.symm
  · rintro rfl
    exact ⟨String.ofList text, fromUTF8?_eq_some_iff.2 encoded, String.toList_ofList⟩

theorem toNat_ofNat_byte (byte : UInt8) :
    (Char.ofNat byte.toNat).toNat = byte.toNat := by
  have bound := byte.toNat_lt
  have valid : byte.toNat.isValidChar := .inl (by omega)
  rw [Char.ofNat, dif_pos valid]
  rfl

theorem latin1_decode_eq_some_iff :
    latin1.decode bytes = some text ↔ latin1.encode? text = some bytes := by
  rw [decode, encode?, Option.some.injEq]
  constructor
  · rintro rfl
    rw [if_pos, List.map_map]
    · apply congrArg some
      calc
        bytes.map ((fun c => UInt8.ofNat c.toNat) ∘ fun byte => Char.ofNat byte.toNat) =
            bytes.map id := by
          apply List.map_congr_left
          intro byte _
          rw [Function.comp_apply, toNat_ofNat_byte, UInt8.ofNat_toNat, id]
        _ = bytes := List.map_id bytes
    · rw [List.all_eq_true]
      intro c member
      obtain ⟨byte, _, rfl⟩ := List.mem_map.1 member
      rw [decide_eq_true_eq, toNat_ofNat_byte]
      exact byte.toNat_lt
  · intro encoded
    split at encoded
    · rename_i narrow
      cases encoded
      rw [List.map_map]
      calc
        text.map ((fun byte => Char.ofNat byte.toNat) ∘ fun c => UInt8.ofNat c.toNat) =
            text.map id := by
          apply List.map_congr_left
          intro c member
          have small := of_decide_eq_true (List.all_eq_true.1 narrow c member)
          rw [Function.comp_apply, UInt8.toNat_ofNat_of_lt' small, Char.ofNat_toNat, id]
        _ = text := List.map_id text
    · contradiction

/-- Decoding is the exact inverse of encoding: it refuses all bytes that no text
has. -/
theorem decode_eq_some_iff :
    encoding.decode bytes = some text ↔ encoding.encode? text = some bytes := by
  cases encoding with
  | utf8 => exact utf8_decode_eq_some_iff
  | latin1 => exact latin1_decode_eq_some_iff

theorem decodeSource_eq_some_iff :
    encoding.decodeSource bytes = some text ↔
      ∃ source, encoding.encode? source = some bytes ∧
        Newline.translate source = text := by
  simp only [decodeSource, Option.map_eq_some_iff, decode_eq_some_iff,
    ← Newline.translate_eq_unify]

theorem utf8_decodeSource_eq_none_iff :
    utf8.decodeSource bytes = none ↔
      ¬ ∃ source : List Char,
        source.flatMap String.utf8EncodeChar = bytes := by
  rw [Option.eq_none_iff_forall_ne_some, not_exists]
  constructor
  · intro refused source encoded
    exact refused _
      (decodeSource_eq_some_iff.2 ⟨source, congrArg some encoded, rfl⟩)
  · intro foreign text found
    obtain ⟨source, encoded, _⟩ := decodeSource_eq_some_iff.1 found
    exact foreign source (Option.some.inj encoded)

/-- Latin-1 takes all bytes for characters, and UTF-8 accepts exactly the bytes of a
text. What comes of them is the text read with any line end for a line feed, which
has no carriage returns, and for a text without any it does not matter which line
ends it was encoded with. -/
theorem decodeSource_exact :
    (∀ bytes, latin1.decodeSource bytes =
      some (Newline.translate (bytes.map fun byte => Char.ofNat byte.toNat))) ∧
      (∀ source : List Char, utf8.decodeSource (source.flatMap String.utf8EncodeChar) =
        some (Newline.translate source)) ∧
      (∀ bytes, utf8.decodeSource bytes = none ↔
        ¬ ∃ source : List Char,
          source.flatMap String.utf8EncodeChar = bytes) ∧
      (∀ (encoding : Encoding) (bytes : List UInt8) (text : List Char),
        encoding.decodeSource bytes = some text → '\r' ∉ text) ∧
      ∀ (encoding : Encoding) (bytes : List UInt8) (text : List Char),
        '\r' ∉ text → ∀ ending ∈ Newline.endings,
          encoding.encode? (Newline.withEndings ending text) = some bytes →
            encoding.decodeSource bytes = some text := by
  refine ⟨?_, ?_, fun bytes => utf8_decodeSource_eq_none_iff, ?_, ?_⟩
  · intro bytes
    rw [decodeSource, decode_latin1, Newline.translate_eq_unify]
    rfl
  · intro source
    exact decodeSource_eq_some_iff.2 ⟨source, rfl, rfl⟩
  · intro encoding bytes text found
    obtain ⟨source, _, rfl⟩ := Option.map_eq_some_iff.1 found
    exact Newline.return_not_mem_unify source
  · intro encoding bytes text plain ending known encoded
    exact decodeSource_eq_some_iff.2
      ⟨_, encoded, Newline.translate_withEndings known plain⟩

/-- Lone carriage returns end two lines, and a carriage return encoded in two bytes is
refused. -/
theorem decodeSource_exact_of_returns :
    let text := ['é', '\n', '\n']
    let bytes : List UInt8 := [0xC3, 0xA9, 0xD, 0xD]
    '\r' ∉ text ∧ ['\r'] ∈ Newline.endings ∧
      utf8.encode? (Newline.withEndings ['\r'] text) = some bytes ∧
      utf8.decodeSource bytes = some text ∧
      utf8.decodeSource [0xC1, 0x8D] = none ∧
      ¬ ∃ source : List Char,
        source.flatMap String.utf8EncodeChar = [0xC1, 0x8D] := by
  intro text bytes
  have plain : '\r' ∉ text := by decide
  have known : ['\r'] ∈ Newline.endings := by decide
  have encoded : utf8.encode? (Newline.withEndings ['\r'] text) = some bytes := by
    decide
  have refused : utf8.decodeSource [0xC1, 0x8D] = none := by decide +kernel
  obtain ⟨_, _, accepts, _, decodes⟩ := decodeSource_exact
  exact ⟨plain, known, encoded, decodes utf8 bytes text plain ['\r'] known encoded,
    refused, (accepts _).1 refused⟩

end Encoding

end Esoteric
