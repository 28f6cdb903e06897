import Mathlib.Algebra.Group.Nat.Defs
import Symbolication.Text.Utf8

/-!
Text written in UTF-8. Reading it one byte at a time completes every character with its last byte
and finds no malformed part, so lossy reading loses nothing of it. Bytes without a malformed part
are written text, so strict reading accepts nothing else.
-/

namespace Symbolication.Utf8

def encode (text : String) : Bytes := text.toList.flatMap String.utf8EncodeChar

theorem scalarsFrom_continue {pending : Pending} {byte : UInt8} {owed : Nat} (rest : Bytes)
    (low : pending.low.toNat ≤ byte.toNat) (high : byte.toNat ≤ pending.high.toNat)
    (more : pending.owed = owed + 1) :
    scalarsFrom (some pending) (byte :: rest) =
      scalarsFrom (some { bits := pending.bits * 64 + (byte.toNat - 0x80), owed }) rest := by
  rw [scalarsFrom, step, if_pos ⟨UInt8.le_iff_toNat_le.mpr low, UInt8.le_iff_toNat_le.mpr high⟩,
    more]
  rfl

theorem scalarsFrom_complete {pending : Pending} {byte : UInt8} (rest : Bytes)
    (low : pending.low.toNat ≤ byte.toNat) (high : byte.toNat ≤ pending.high.toNat)
    (last : pending.owed = 0) :
    scalarsFrom (some pending) (byte :: rest) =
      some (Char.ofNat (pending.bits * 64 + (byte.toNat - 0x80))) :: scalarsFrom none rest := by
  rw [scalarsFrom, step, if_pos ⟨UInt8.le_iff_toNat_le.mpr low, UInt8.le_iff_toNat_le.mpr high⟩,
    last]
  rfl

theorem scalarsFrom_open {pending : Pending} {byte : UInt8} (rest : Bytes)
    (opens : opening byte = .pending pending) :
    scalarsFrom none (byte :: rest) = scalarsFrom (some pending) rest := by
  rw [scalarsFrom, step, start, opens]
  rfl

theorem opening_two {group : Nat} (above : 2 ≤ group) (below : group < 32) :
    opening (UInt8.ofNat (group + 0xc0)) = .pending { bits := group, owed := 0 } := by
  have value := UInt8.toNat_ofNat_of_lt' (show group + 0xc0 < 256 by omega)
  unfold opening
  simp only [UInt8.lt_iff_toNat_lt, value, UInt8.reduceToNat]
  rw [if_neg (by omega), if_neg (by omega), if_pos (by omega), Nat.add_sub_cancel]

theorem opening_three {group : Nat} (below : group < 16) :
    opening (UInt8.ofNat (group + 0xe0)) = .pending
      { bits := group, owed := 1
        low := if group = 0 then 0xa0 else 0x80
        high := if group = 13 then 0x9f else 0xbf } := by
  have value := UInt8.toNat_ofNat_of_lt' (show group + 0xe0 < 256 by omega)
  unfold opening
  simp only [UInt8.lt_iff_toNat_lt, ← UInt8.toNat_inj, value, UInt8.reduceToNat]
  rw [if_neg (by omega), if_neg (by omega), if_neg (by omega)]
  -- The second byte may make the character neither overlong nor a surrogate.
  by_cases overlong : group = 0
  · subst group
    rfl
  · rw [if_neg (by omega), if_neg overlong]
    by_cases surrogate : group = 13
    · subst group
      rfl
    · rw [if_neg (by omega), if_pos (by omega), if_neg surrogate, Nat.add_sub_cancel]

theorem opening_four {group : Nat} (below : group < 5) :
    opening (UInt8.ofNat (group + 0xf0)) = .pending
      { bits := group, owed := 2
        low := if group = 0 then 0x90 else 0x80
        high := if group = 4 then 0x8f else 0xbf } := by
  have value := UInt8.toNat_ofNat_of_lt' (show group + 0xf0 < 256 by omega)
  unfold opening
  simp only [UInt8.lt_iff_toNat_lt, ← UInt8.toNat_inj, value, UInt8.reduceToNat]
  rw [if_neg (by omega), if_neg (by omega), if_neg (by omega), if_neg (by omega),
    if_neg (by omega), if_neg (by omega)]
  by_cases overlong : group = 0
  · subst group
    rfl
  · rw [if_neg (by omega), if_neg overlong]
    by_cases highest : group = 4
    · subst group
      rfl
    · rw [if_pos (by omega), if_neg highest, Nat.add_sub_cancel]

def continuation (group : Nat) : UInt8 := UInt8.ofNat (group % 0x40 + 0x80)

theorem toNat_continuation (group : Nat) : (continuation group).toNat = group % 64 + 128 :=
  UInt8.toNat_ofNat_of_lt' (show group % 0x40 + 0x80 < 256 by omega)

theorem scalarsFrom_one {value : Nat} (below : value < 0x80) (rest : Bytes) :
    scalarsFrom none (UInt8.ofNat value :: rest) =
      some (Char.ofNat value) :: scalarsFrom none rest := by
  have byte := UInt8.toNat_ofNat_of_lt' (show value < 256 by omega)
  have opens : opening (UInt8.ofNat value) = .character (Char.ofNat value) := by
    unfold opening
    simp only [UInt8.lt_iff_toNat_lt, byte, UInt8.reduceToNat]
    rw [if_pos below]
  rw [scalarsFrom, step, start, opens]
  rfl

theorem scalarsFrom_two {value : Nat} (above : 0x80 ≤ value) (below : value < 0x800)
    (rest : Bytes) :
    scalarsFrom none (UInt8.ofNat (value / 64 % 32 + 0xc0) :: continuation value :: rest) =
      some (Char.ofNat value) :: scalarsFrom none rest := by
  have second := toNat_continuation value
  have whole : value / 64 % 32 * 64 + (value % 64 + 128 - 128) = value := by omega
  rw [scalarsFrom_open _ (opening_two (by omega) (by omega)),
    scalarsFrom_complete rest (by rw [second]; change 128 ≤ _; omega)
      (by rw [second]; change _ ≤ 191; omega) rfl, second, whole]

theorem scalarsFrom_three {value : Nat} (above : 0x800 ≤ value) (below : value < 0x10000)
    (scalar : value < 0xd800 ∨ 0xdfff < value) (rest : Bytes) :
    scalarsFrom none (UInt8.ofNat (value / 4096 % 16 + 0xe0) ::
        continuation (value / 64) :: continuation value :: rest) =
      some (Char.ofNat value) :: scalarsFrom none rest := by
  have second := toNat_continuation (value / 64)
  have third := toNat_continuation value
  have whole : (value / 4096 % 16 * 64 + (value / 64 % 64 + 128 - 128)) * 64 +
      (value % 64 + 128 - 128) = value := by omega
  have low : (if value / 4096 % 16 = 0 then (0xa0 : UInt8) else 0x80).toNat ≤
      value / 64 % 64 + 128 := by
    split <;> (simp only [UInt8.reduceToNat]; omega)
  have high : value / 64 % 64 + 128 ≤
      (if value / 4096 % 16 = 13 then (0x9f : UInt8) else 0xbf).toNat := by
    split <;> (simp only [UInt8.reduceToNat]; omega)
  rw [scalarsFrom_open _ (opening_three (by omega)),
    scalarsFrom_continue _ (by rw [second]; exact low) (by rw [second]; exact high) rfl,
    scalarsFrom_complete rest (by rw [third]; change 128 ≤ _; omega)
      (by rw [third]; change _ ≤ 191; omega) rfl, second, third, whole]

theorem scalarsFrom_four {value : Nat} (above : 0x10000 ≤ value) (below : value < 0x110000)
    (rest : Bytes) :
    scalarsFrom none (UInt8.ofNat (value / 262144 % 8 + 0xf0) :: continuation (value / 4096) ::
        continuation (value / 64) :: continuation value :: rest) =
      some (Char.ofNat value) :: scalarsFrom none rest := by
  have second := toNat_continuation (value / 4096)
  have third := toNat_continuation (value / 64)
  have fourth := toNat_continuation value
  have whole : ((value / 262144 % 8 * 64 + (value / 4096 % 64 + 128 - 128)) * 64 +
      (value / 64 % 64 + 128 - 128)) * 64 + (value % 64 + 128 - 128) = value := by omega
  have low : (if value / 262144 % 8 = 0 then (0x90 : UInt8) else 0x80).toNat ≤
      value / 4096 % 64 + 128 := by
    split <;> (simp only [UInt8.reduceToNat]; omega)
  have high : value / 4096 % 64 + 128 ≤
      (if value / 262144 % 8 = 4 then (0x8f : UInt8) else 0xbf).toNat := by
    split <;> (simp only [UInt8.reduceToNat]; omega)
  rw [scalarsFrom_open _ (opening_four (by omega)),
    scalarsFrom_continue _ (by rw [second]; exact low) (by rw [second]; exact high) rfl,
    scalarsFrom_continue _ (by rw [third]; change 128 ≤ _; omega)
      (by rw [third]; change _ ≤ 191; omega) rfl,
    scalarsFrom_complete rest (by rw [fourth]; change 128 ≤ _; omega)
      (by rw [fourth]; change _ ≤ 191; omega) rfl, second, third, fourth, whole]

theorem scalarsFrom_encodeChar (character : Char) (rest : Bytes) :
    scalarsFrom none (String.utf8EncodeChar character ++ rest) =
      some character :: scalarsFrom none rest := by
  have scalar : character.val.toNat < 0xd800 ∨
      0xdfff < character.val.toNat ∧ character.val.toNat < 0x110000 := character.valid
  have whole : Char.ofNat character.val.toNat = character := Char.ofNat_toNat character
  fun_cases String.utf8EncodeChar character with
  | case1 value one => exact (scalarsFrom_one (by omega) rest).trans (by rw [whole])
  | case2 value several two =>
      exact (scalarsFrom_two (by omega) (by omega) rest).trans (by rw [whole])
  | case3 value several more three =>
      exact (scalarsFrom_three (by omega) (by omega) (by omega) rest).trans (by rw [whole])
  | case4 value several more most =>
      exact (scalarsFrom_four (by omega) (by omega) rest).trans (by rw [whole])

theorem scalars_encode (text : String) : scalars (encode text) = text.toList.map some := by
  unfold scalars encode
  induction text.toList with
  | nil => rfl
  | cons character characters induction =>
      rw [List.flatMap_cons, scalarsFrom_encodeChar, induction, List.map_cons]

theorem lossyText_encode (text : String) : lossyText (encode text) = text := by
  unfold lossyText
  rw [scalars_encode, List.map_map]
  change String.ofList (text.toList.map id) = text
  rw [List.map_id, String.ofList_toList]

/-- Strict reading accepts every text that was written. -/
theorem text?_encode (text : String) : text? (encode text) = some text := by
  have whole : (text.toList.map some).mapM id = some text.toList := by
    rw [List.mapM_map]
    exact List.mapM_pure.trans (congrArg some (List.map_id _))
  unfold text?
  rw [scalars_encode, whole, Option.map_some, String.ofList_toList]

theorem ofNat_ne_zero {value : Nat} (positive : 0 < value) (bound : value < 256) :
    0 ≠ UInt8.ofNat value := by
  intro same
  have byte := UInt8.toNat_ofNat_of_lt' bound
  rw [← same] at byte
  change 0 = value at byte
  omega

/-- Only the character of number zero is written with a zero byte. -/
theorem zero_notMem_encodeChar {character : Char} (nonzero : character ≠ '\x00') :
    0 ∉ String.utf8EncodeChar character := by
  have further (group : Nat) : 0 ≠ UInt8.ofNat (group % 64 + 128) :=
    ofNat_ne_zero (by omega) (by omega)
  fun_cases String.utf8EncodeChar character with
  | case1 value one =>
      have positive : 0 < value := by
        apply Nat.pos_of_ne_zero
        intro zero
        exact nonzero (Char.ext (UInt32.toNat_inj.mp zero))
      rw [List.mem_singleton]
      exact ofNat_ne_zero positive (by omega)
  | case2 value several two =>
      simp only [List.mem_cons, List.not_mem_nil, or_false, not_or]
      exact ⟨ofNat_ne_zero (by omega) (by omega), further value⟩
  | case3 value several more three =>
      simp only [List.mem_cons, List.not_mem_nil, or_false, not_or]
      exact ⟨ofNat_ne_zero (by omega) (by omega), further (value / 64), further value⟩
  | case4 value several more most =>
      simp only [List.mem_cons, List.not_mem_nil, or_false, not_or]
      exact ⟨ofNat_ne_zero (by omega) (by omega), further (value / 4096), further (value / 64),
        further value⟩

theorem zero_notMem_encode {text : String} (clean : '\x00' ∉ text.toList) : 0 ∉ encode text := by
  unfold encode
  rw [List.mem_flatMap]
  rintro ⟨character, member, zero⟩
  exact zero_notMem_encodeChar (fun same => clean (same ▸ member)) zero

theorem encode_ne_nil {text : String} (nonempty : text ≠ "") : encode text ≠ [] := by
  unfold encode
  rw [ne_eq, List.flatMap_eq_nil_iff]
  intro allEmpty
  cases characters : text.toList with
  | nil => exact nonempty (String.toList_eq_nil_iff.mp characters)
  | cons character rest =>
      rw [characters] at allEmpty
      exact String.utf8EncodeChar_ne_nil (allEmpty character List.mem_cons_self)

/-! Conversely, bytes without a malformed part are those that their characters are written with. -/

theorem number_ofNat {value : Nat} (scalar : value < 0xd800 ∨ 0xdfff < value ∧ value < 0x110000) :
    (Char.ofNat value).val.toNat = value := by
  have valid : value.isValidChar := scalar
  unfold Char.ofNat
  rw [dif_pos valid]
  rfl

/-- The bytes of a character, by how many of them there are. -/
inductive Spells : Nat → Bytes → Prop
  | one {value : Nat} : value < 0x80 → Spells value [UInt8.ofNat value]
  | two {value : Nat} : 0x80 ≤ value → value < 0x800 →
      Spells value [UInt8.ofNat (value / 64 % 32 + 0xc0), continuation value]
  | three {value : Nat} : 0x800 ≤ value → value < 0x10000 → value < 0xd800 ∨ 0xdfff < value →
      Spells value [UInt8.ofNat (value / 4096 % 16 + 0xe0), continuation (value / 64),
        continuation value]
  | four {value : Nat} : 0x10000 ≤ value → value < 0x110000 →
      Spells value [UInt8.ofNat (value / 262144 % 8 + 0xf0), continuation (value / 4096),
        continuation (value / 64), continuation value]

theorem Spells.encodeChar_eq {value : Nat} {bytes : Bytes} (spells : Spells value bytes) :
    String.utf8EncodeChar (Char.ofNat value) = bytes := by
  cases spells with
  | one below =>
      unfold String.utf8EncodeChar
      rw [number_ofNat (.inl (by omega)), if_pos (by omega)]
  | two above below =>
      unfold String.utf8EncodeChar
      rw [number_ofNat (.inl (by omega)), if_neg (by omega), if_pos (by omega)]
      rfl
  | three above below scalar =>
      unfold String.utf8EncodeChar
      rw [number_ofNat (by omega), if_neg (by omega), if_neg (by omega), if_pos (by omega)]
      rfl
  | four above below =>
      unfold String.utf8EncodeChar
      rw [number_ofNat (by omega), if_neg (by omega), if_neg (by omega), if_neg (by omega)]
      rfl

section Clean

variable {pending : Pending} {bytes : Bytes} {characters : List Char}

/-- A character that has begun goes on with a byte in its bounds. -/
theorem bounds_of_clean (clean : scalarsFrom (some pending) bytes = characters.map some) :
    ∃ byte rest, bytes = byte :: rest ∧ pending.low.toNat ≤ byte.toNat ∧
      byte.toNat ≤ pending.high.toNat := by
  cases bytes with
  | nil =>
      unfold scalarsFrom at clean
      cases characters <;> simp at clean
  | cons byte rest =>
      refine ⟨byte, rest, rfl, ?_⟩
      by_cases inside : pending.low ≤ byte ∧ byte ≤ pending.high
      · exact ⟨UInt8.le_iff_toNat_le.mp inside.1, UInt8.le_iff_toNat_le.mp inside.2⟩
      · rw [scalarsFrom, step, if_neg inside] at clean
        cases characters <;> simp at clean

theorem continue_of_clean {owed : Nat} (more : pending.owed = owed + 1)
    (clean : scalarsFrom (some pending) bytes = characters.map some) :
    ∃ byte rest, bytes = byte :: rest ∧ pending.low.toNat ≤ byte.toNat ∧
      byte.toNat ≤ pending.high.toNat ∧
        scalarsFrom (some { bits := pending.bits * 64 + (byte.toNat - 0x80), owed }) rest =
          characters.map some := by
  obtain ⟨byte, rest, rfl, low, high⟩ := bounds_of_clean clean
  rw [scalarsFrom_continue rest low high more] at clean
  exact ⟨byte, rest, rfl, low, high, clean⟩

theorem complete_of_clean (last : pending.owed = 0)
    (clean : scalarsFrom (some pending) bytes = characters.map some) :
    ∃ byte rest others, bytes = byte :: rest ∧ pending.low.toNat ≤ byte.toNat ∧
      byte.toNat ≤ pending.high.toNat ∧
        characters = Char.ofNat (pending.bits * 64 + (byte.toNat - 0x80)) :: others ∧
          scalarsFrom none rest = others.map some := by
  obtain ⟨byte, rest, rfl, low, high⟩ := bounds_of_clean clean
  rw [scalarsFrom_complete rest low high last] at clean
  obtain ⟨first, others, split, same, behind⟩ := List.map_eq_cons_iff.mp clean.symm
  rw [Option.some.inj same] at split
  exact ⟨byte, rest, others, rfl, low, high, split, behind.symm⟩

theorem continuation_eq {byte : UInt8} {value : Nat} (low : 0x80 ≤ byte.toNat)
    (high : byte.toNat ≤ 0xbf) (same : value % 64 = byte.toNat - 0x80) :
    continuation value = byte := by
  have number : (continuation value).toNat = byte.toNat := by
    rw [toNat_continuation]
    omega
  exact UInt8.toNat_inj.mp number

/-- What the first byte of a clean text begins. -/
theorem opening_cases (byte : UInt8) :
    byte.toNat < 0x80 ∨ opening byte = .malformed ∨
      (∃ group, 2 ≤ group ∧ group < 32 ∧ byte = UInt8.ofNat (group + 0xc0)) ∨
      (∃ group < 16, byte = UInt8.ofNat (group + 0xe0)) ∨
      ∃ group < 5, byte = UInt8.ofNat (group + 0xf0) := by
  have shape (base : Nat) (above : base ≤ byte.toNat) :
      byte = UInt8.ofNat (byte.toNat - base + base) := by
    rw [Nat.sub_add_cancel above, UInt8.ofNat_toNat]
  have small := byte.toNat_lt
  by_cases one : byte.toNat < 0x80
  · exact .inl one
  · right
    by_cases two : 0xc2 ≤ byte.toNat ∧ byte.toNat < 0xe0
    · exact .inr (.inl ⟨_, by omega, by omega, shape 0xc0 (by omega)⟩)
    · by_cases three : 0xe0 ≤ byte.toNat ∧ byte.toNat < 0xf0
      · exact .inr (.inr (.inl ⟨_, by omega, shape 0xe0 (by omega)⟩))
      · by_cases four : 0xf0 ≤ byte.toNat ∧ byte.toNat < 0xf5
        · exact .inr (.inr (.inr ⟨_, by omega, shape 0xf0 (by omega)⟩))
        · left
          unfold opening
          simp only [UInt8.lt_iff_toNat_lt, ← UInt8.toNat_inj, UInt8.reduceToNat]
          grind

/-- The first of the characters is spelled in front of bytes that are clean as well. -/
def Leads (characters : List Char) (bytes : Bytes) : Prop :=
  ∃ value front rest others, Spells value front ∧ bytes = front ++ rest ∧
    characters = Char.ofNat value :: others ∧ scalarsFrom none rest = others.map some

theorem leads_two {group : Nat} (above : 2 ≤ group) (below : group < 32)
    (clean : scalarsFrom none (UInt8.ofNat (group + 0xc0) :: bytes) = characters.map some) :
    Leads characters (UInt8.ofNat (group + 0xc0) :: bytes) := by
  rw [scalarsFrom_open _ (opening_two above below)] at clean
  obtain ⟨second, rest, others, rfl, low, high, split, behind⟩ := complete_of_clean rfl clean
  change 128 ≤ _ at low
  change _ ≤ 191 at high
  obtain ⟨value, value_eq⟩ : ∃ value, value = group * 64 + (second.toNat - 0x80) := ⟨_, rfl⟩
  rw [← value_eq] at split
  refine ⟨value, _, rest, others, .two (by omega) (by omega), ?_, split, behind⟩
  have first : value / 64 % 32 = group := by omega
  rw [first, continuation_eq low high (by omega)]
  rfl

theorem leads_three {group : Nat} (below : group < 16)
    (clean : scalarsFrom none (UInt8.ofNat (group + 0xe0) :: bytes) = characters.map some) :
    Leads characters (UInt8.ofNat (group + 0xe0) :: bytes) := by
  rw [scalarsFrom_open _ (opening_three below)] at clean
  obtain ⟨second, _, rfl, low, high, clean⟩ := continue_of_clean rfl clean
  obtain ⟨third, rest, others, rfl, low', high', split, behind⟩ := complete_of_clean rfl clean
  change 128 ≤ _ at low'
  change _ ≤ 191 at high'
  -- The bounds of the second byte are what keeps overlong forms and surrogates out.
  have bounds : 128 ≤ second.toNat ∧ second.toNat ≤ 191 ∧ (group = 0 → 160 ≤ second.toNat) ∧
      (group = 13 → second.toNat ≤ 159) := by
    dsimp only at low high
    split at low <;> split at high <;> simp only [UInt8.reduceToNat] at low high <;> omega
  obtain ⟨value, value_eq⟩ : ∃ value,
    value = (group * 64 + (second.toNat - 0x80)) * 64 + (third.toNat - 0x80) := ⟨_, rfl⟩
  rw [← value_eq] at split
  refine ⟨value, _, rest, others, .three (by omega) (by omega) (by omega), ?_, split, behind⟩
  have first : value / 4096 % 16 = group := by omega
  rw [first, continuation_eq bounds.1 bounds.2.1 (by omega), continuation_eq low' high' (by omega)]
  rfl

theorem leads_four {group : Nat} (below : group < 5)
    (clean : scalarsFrom none (UInt8.ofNat (group + 0xf0) :: bytes) = characters.map some) :
    Leads characters (UInt8.ofNat (group + 0xf0) :: bytes) := by
  rw [scalarsFrom_open _ (opening_four below)] at clean
  obtain ⟨second, _, rfl, low, high, clean⟩ := continue_of_clean rfl clean
  obtain ⟨third, _, rfl, low', high', clean⟩ := continue_of_clean rfl clean
  obtain ⟨fourth, rest, others, rfl, low'', high'', split, behind⟩ := complete_of_clean rfl clean
  change 128 ≤ _ at low' low''
  change _ ≤ 191 at high' high''
  -- Here they keep out overlong forms and what lies above the last character.
  have bounds : 128 ≤ second.toNat ∧ second.toNat ≤ 191 ∧ (group = 0 → 144 ≤ second.toNat) ∧
      (group = 4 → second.toNat ≤ 143) := by
    dsimp only at low high
    split at low <;> split at high <;> simp only [UInt8.reduceToNat] at low high <;> omega
  obtain ⟨value, value_eq⟩ : ∃ value, value =
    ((group * 64 + (second.toNat - 0x80)) * 64 + (third.toNat - 0x80)) * 64 +
      (fourth.toNat - 0x80) := ⟨_, rfl⟩
  rw [← value_eq] at split
  refine ⟨value, _, rest, others, .four (by omega) (by omega), ?_, split, behind⟩
  have first : value / 262144 % 8 = group := by omega
  rw [first, continuation_eq bounds.1 bounds.2.1 (by omega), continuation_eq low' high' (by omega),
    continuation_eq low'' high'' (by omega)]
  rfl

theorem leads_of_clean {byte : UInt8}
    (clean : scalarsFrom none (byte :: bytes) = characters.map some) :
    Leads characters (byte :: bytes) := by
  rcases opening_cases byte with
    small | malformed | ⟨group, above, below, rfl⟩ | ⟨group, below, rfl⟩ | ⟨group, below, rfl⟩
  · have shape : byte = UInt8.ofNat byte.toNat := UInt8.ofNat_toNat.symm
    rw [shape, scalarsFrom_one small] at clean
    obtain ⟨first, others, split, same, behind⟩ := List.map_eq_cons_iff.mp clean.symm
    rw [Option.some.inj same] at split
    exact ⟨_, _, bytes, others, .one small, by rw [← shape]; rfl, split, behind.symm⟩
  · rw [scalarsFrom, step, start, malformed] at clean
    cases characters <;> simp at clean
  · exact leads_two above below clean
  · exact leads_three below clean
  · exact leads_four below clean

theorem eq_encode_of_clean (bytes : Bytes) (characters : List Char)
    (clean : scalarsFrom none bytes = characters.map some) :
    bytes = characters.flatMap String.utf8EncodeChar := by
  cases bytes with
  | nil =>
      rw [scalarsFrom] at clean
      rw [List.map_eq_nil_iff.mp clean.symm]
      rfl
  | cons byte bytes =>
      obtain ⟨value, front, rest, others, spells, split, rfl, behind⟩ := leads_of_clean clean
      have shorter : rest.length < (byte :: bytes).length := by
        have some : 0 < front.length := by cases spells <;> exact Nat.succ_pos _
        rw [split, List.length_append]
        omega
      rw [split, List.flatMap_cons, spells.encodeChar_eq, eq_encode_of_clean rest others behind]
termination_by bytes.length

end Clean

theorem eq_map_some_of_mapM_id {scalars : List Scalar} {characters : List Char}
    (whole : scalars.mapM id = some characters) : scalars = characters.map some := by
  induction scalars generalizing characters with
  | nil =>
      cases whole
      rfl
  | cons scalar scalars induction =>
      rw [List.mapM_cons, Option.bind_eq_bind, Option.bind_eq_some_iff] at whole
      obtain ⟨character, rfl, whole⟩ := whole
      rw [Option.bind_eq_bind, Option.bind_eq_some_iff] at whole
      obtain ⟨others, whole, same⟩ := whole
      cases same
      rw [induction whole]
      rfl

/-- Strict reading accepts a text as it is written and nothing else. -/
theorem text?_eq_some_iff {bytes : Bytes} {text : String} :
    text? bytes = some text ↔ bytes = encode text := by
  constructor
  · intro reads
    unfold text? at reads
    obtain ⟨characters, clean, rfl⟩ := Option.map_eq_some_iff.mp reads
    unfold encode
    rw [String.toList_ofList]
    exact eq_encode_of_clean bytes characters (eq_map_some_of_mapM_id clean)
  · intro same
    rw [same]
    exact text?_encode text

end Symbolication.Utf8
