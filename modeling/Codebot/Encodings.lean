import Codebot.Texts
import Mathlib.Data.List.DropRight

/-!
Bytes as texts: Base64 in the alphabet for URLs, which the decoder of the standard library reads
without strictness, and UTF-8. Bytes that are encoded, without the padding, are read back once the
padding is there again (`decode_encode`).
-/
namespace Codebot.Encodings
open Texts List

/-- The alphabet for URLs. -/
def character (sextet : Nat) : Nat :=
  if sextet < 26 then 65 + sextet
  else if sextet < 52 then 71 + sextet
  else if sextet < 62 then sextet - 4
  else if sextet = 62 then '-'.toNat
  else '_'.toNat

/-- What a character stands for, in the alphabet for URLs or the other one. -/
def sextet (c : Nat) : Option Nat :=
  if asciiUpper c then some (c - 65)
  else if asciiLower c then some (c - 71)
  else if asciiDigit c then some (c + 4)
  else if c = '-'.toNat ∨ c = '+'.toNat then some 62
  else if c = '_'.toNat ∨ c = '/'.toNat then some 63
  else none

/-- The bits of bytes, six by six. -/
def sextets : List Nat → List Nat
  | [] => []
  | [a] => [a / 4,a % 4 * 16]
  | [a,b] => [a / 4,a % 4 * 16 + b / 16,b % 16 * 4]
  | a :: b :: c :: rest => a / 4 :: (a % 4 * 16 + b / 16) :: (b % 16 * 4 + c / 64) :: c % 64 :: sextets rest
def pad : Nat := '='.toNat
/-- `base64.urlsafe_b64encode`. -/
def encode (bytes : List Nat) : Text :=
  (sextets bytes).map character ++ List.replicate ((3 - bytes.length % 3) % 3) pad

/-- The loop of `binascii.a2b_base64`: the place in a group of four, the bits left over, the paddings seen, and the
    bytes. -/
def decodeFrom : Nat → Nat → Nat → List Nat → Text → Option (List Nat)
  | place,_,_,bytes,[] => if place = 0 then some bytes else none
  | place,left,pads,bytes,c :: rest =>
    if c = pad then
      if 2 ≤ place then if 4 ≤ place + (pads + 1) then some bytes else decodeFrom place left (pads + 1) bytes rest
      else decodeFrom place left pads bytes rest
    else
      match sextet c with
      | none => decodeFrom place left pads bytes rest
      | some value =>
        match place with
        | 0 => decodeFrom 1 value 0 bytes rest
        | 1 => decodeFrom 2 (value % 16) 0 (bytes ++ [left * 4 + value / 16]) rest
        | 2 => decodeFrom 3 (value % 4) 0 (bytes ++ [left * 16 + value / 4]) rest
        | _ => decodeFrom 0 0 0 (bytes ++ [left * 64 + value]) rest

/-- `base64.urlsafe_b64decode`. -/
def decode (t : Text) : Option (List Nat) := decodeFrom 0 0 0 [] t
/-- `rstrip("=")`. -/
def stripPadding (t : Text) : Text := t.rdropWhile fun c => c == pad
/-- `"=" * (-len(t) % 4)`. -/
def padding (t : Text) : Text := List.replicate ((4 - t.length % 4) % 4) pad
def continues (low high c : Nat) : Bool := low ≤ c && c ≤ high

/-- `bytes.decode("utf-8")`. -/
def utf8 : List Nat → Option Text
  | [] => some []
  | a :: rest =>
    if a < 0x80 then (utf8 rest).map (a :: ·)
    else
      match rest with
      | [] => none
      | b :: rest =>
        if 0xC2 ≤ a ∧ a < 0xE0 then
          if continues 0x80 0xBF b then (utf8 rest).map (((a - 0xC0) * 64 + (b - 0x80)) :: ·) else none
        else
          match rest with
          | [] => none
          | c :: rest =>
            if 0xE0 ≤ a ∧ a < 0xF0 then
              if continues (if a = 0xE0 then 0xA0 else 0x80) (if a = 0xED then 0x9F else 0xBF) b && continues 0x80 0xBF c then
                (utf8 rest).map (((a - 0xE0) * 4096 + (b - 0x80) * 64 + (c - 0x80)) :: ·)
              else none
            else
              match rest with
              | [] => none
              | d :: rest =>
                if (0xF0 ≤ a ∧ a < 0xF5) ∧ continues (if a = 0xF0 then 0x90 else 0x80) (if a = 0xF4 then 0x8F else 0xBF) b &&
                    continues 0x80 0xBF c && continues 0x80 0xBF d then
                  (utf8 rest).map (((a - 0xF0) * 262144 + (b - 0x80) * 4096 + (c - 0x80) * 64 + (d - 0x80)) :: ·)
                else none

theorem utf8_ascii {t : Text} (ascii : ∀ c ∈ t, c < 128) : utf8 t = some t := by
  induction t with
  | nil => rfl
  | cons c rest ih =>
    obtain ⟨here,later⟩ := forall_mem_cons.mp ascii
    rw [utf8.eq_def]
    simp only [here,if_true,ih later,Option.map_some]
theorem character_digit : ∀ value < 64, sextet (character value) = some value ∧ character value ≠ pad ∧
    character value < 128 ∧ 45 ≤ character value := by decide

section Characters
variable {value : Nat} (small : value < 64) (left pads : Nat) (bytes : List Nat) (rest : Text)
include small

theorem decodeFrom_first : decodeFrom 0 left pads bytes (character value :: rest) = decodeFrom 1 value 0 bytes rest := by
  obtain ⟨isValue,noPad,_⟩ := character_digit value small
  rw [decodeFrom,if_neg noPad,isValue]
  rfl
theorem decodeFrom_second : decodeFrom 1 left pads bytes (character value :: rest) =
    decodeFrom 2 (value % 16) 0 (bytes ++ [left * 4 + value / 16]) rest := by
  obtain ⟨isValue,noPad,_⟩ := character_digit value small
  rw [decodeFrom,if_neg noPad,isValue]
  rfl
theorem decodeFrom_third : decodeFrom 2 left pads bytes (character value :: rest) =
    decodeFrom 3 (value % 4) 0 (bytes ++ [left * 16 + value / 4]) rest := by
  obtain ⟨isValue,noPad,_⟩ := character_digit value small
  rw [decodeFrom,if_neg noPad,isValue]
  rfl
theorem decodeFrom_fourth : decodeFrom 3 left pads bytes (character value :: rest) =
    decodeFrom 0 0 0 (bytes ++ [left * 64 + value]) rest := by
  obtain ⟨isValue,noPad,_⟩ := character_digit value small
  rw [decodeFrom,if_neg noPad,isValue]
  rfl

end Characters

theorem decodeFrom_sextets {bytes : List Nat} (isBytes : ∀ byte ∈ bytes, byte < 256) (before : List Nat) :
    (∀ value ∈ sextets bytes, value < 64) ∧
      decodeFrom 0 0 0 before ((sextets bytes).map character ++ List.replicate ((3 - bytes.length % 3) % 3) pad) =
        some (before ++ bytes) := by
  induction bytes using sextets.induct generalizing before with
  | case1 => exact ⟨nofun,by simp [sextets,decodeFrom]⟩
  | case2 a =>
    have small : a < 256 := isBytes a mem_cons_self
    have values : ∀ value ∈ sextets [a], value < 64 := by
      simp only [sextets,forall_mem_cons]
      exact ⟨by omega,by omega,nofun⟩
    obtain ⟨first,second,_⟩ := (forall_mem_cons.mp values).imp_right forall_mem_cons.mp
    refine ⟨values,?_⟩
    have whole : a / 4 * 4 + a % 4 * 16 / 16 = a := by omega
    simp only [sextets,map_cons,map_nil,cons_append,nil_append]
    rw [decodeFrom_first first,decodeFrom_second second,whole]
    simp [decodeFrom,List.replicate]
  | case3 a b =>
    obtain ⟨smallA,smallB,_⟩ := (forall_mem_cons.mp isBytes).imp_right forall_mem_cons.mp
    have values : ∀ value ∈ sextets [a,b], value < 64 := by
      simp only [sextets,forall_mem_cons]
      exact ⟨by omega,by omega,by omega,nofun⟩
    obtain ⟨first,second,third,_⟩ := (forall_mem_cons.mp values).imp_right fun rest =>
      (forall_mem_cons.mp rest).imp_right forall_mem_cons.mp
    refine ⟨values,?_⟩
    have wholeA : a / 4 * 4 + (a % 4 * 16 + b / 16) / 16 = a := by omega
    have wholeB : (a % 4 * 16 + b / 16) % 16 * 16 + b % 16 * 4 / 4 = b := by omega
    simp only [sextets,map_cons,map_nil,cons_append,nil_append]
    rw [decodeFrom_first first,decodeFrom_second second,wholeA,decodeFrom_third third,wholeB]
    simp [decodeFrom]
  | case4 a b c rest ih =>
    obtain ⟨smallA,smallB,smallC,small⟩ := (forall_mem_cons.mp isBytes).imp_right fun others =>
      (forall_mem_cons.mp others).imp_right forall_mem_cons.mp
    obtain ⟨later,decoded⟩ := ih small (before ++ [a] ++ [b] ++ [c])
    have wholeA : a / 4 * 4 + (a % 4 * 16 + b / 16) / 16 = a := by omega
    have wholeB : (a % 4 * 16 + b / 16) % 16 * 16 + (b % 16 * 4 + c / 64) / 4 = b := by omega
    have wholeC : (b % 16 * 4 + c / 64) % 4 * 64 + c % 64 = c := by omega
    have length : (3 - (a :: b :: c :: rest).length % 3) % 3 = (3 - rest.length % 3) % 3 := by
      simp only [length_cons]
      omega
    refine ⟨?_,?_⟩
    · simp only [sextets,forall_mem_cons]
      exact ⟨by omega,by omega,by omega,by omega,later⟩
    · rw [length,sextets]
      simp only [map_cons,cons_append]
      rw [decodeFrom_first (by omega),decodeFrom_second (by omega),wholeA,decodeFrom_third (by omega),wholeB,
        decodeFrom_fourth (by omega),wholeC,decoded]
      simp

theorem sextets_length (bytes : List Nat) : (sextets bytes).length = bytes.length / 3 * 4 + (bytes.length % 3 * 4 + 2) / 3 := by
  induction bytes using sextets.induct with
  | case1 => rfl
  | case2 a => simp [sextets]
  | case3 a b => simp [sextets]
  | case4 a b c rest ih =>
    simp only [sextets,length_cons,ih]
    omega

theorem stripPadding_encode {bytes : List Nat} (isBytes : ∀ byte ∈ bytes, byte < 256) :
    stripPadding (encode bytes) = (sextets bytes).map character := by
  have values := (decodeFrom_sextets isBytes []).1
  have stripped : ∀ count, stripPadding ((sextets bytes).map character ++ List.replicate count pad) = (sextets bytes).map character := by
    intro count
    induction count with
    | zero =>
      rw [replicate_zero,append_nil,stripPadding,rdropWhile_eq_self_iff]
      intro some isPad
      obtain ⟨value,member,isLast⟩ := mem_map.mp (getLast_mem some)
      rw [← isLast] at isPad
      exact (character_digit value (values value member)).2.1 (eq_of_beq isPad)
    | succ count ih =>
      rw [replicate_succ',← append_assoc,stripPadding,rdropWhile_concat_pos _ _ _ (by simp)]
      exact ih
  exact stripped _

/-- Bytes that are encoded, with their padding taken off and put on again, are read back. -/
theorem decode_encode {bytes : List Nat} (isBytes : ∀ byte ∈ bytes, byte < 256) :
    decode (stripPadding (encode bytes) ++ padding (stripPadding (encode bytes))) = some bytes := by
  have pads : (4 - ((sextets bytes).map character).length % 4) % 4 = (3 - bytes.length % 3) % 3 := by
    have parts : bytes.length % 3 = 0 ∨ bytes.length % 3 = 1 ∨ bytes.length % 3 = 2 := by omega
    rw [length_map,sextets_length]
    rcases parts with none | one | two
    · omega
    · omega
    · omega
  rw [stripPadding_encode isBytes,padding,pads,decode]
  exact (decodeFrom_sextets isBytes []).2

theorem encode_visible {bytes : List Nat} (isBytes : ∀ byte ∈ bytes, byte < 256) :
    ∀ c ∈ stripPadding (encode bytes), 45 ≤ c ∧ c < 128 := by
  rw [stripPadding_encode isBytes]
  intro c member
  obtain ⟨value,isValue,rfl⟩ := mem_map.mp member
  obtain ⟨_,_,small,visible⟩ := character_digit value ((decodeFrom_sextets isBytes []).1 value isValue)
  exact ⟨visible,small⟩

theorem encode_some {bytes : List Nat} (isBytes : ∀ byte ∈ bytes, byte < 256) (written : bytes ≠ []) :
    stripPadding (encode bytes) ≠ [] := by
  have length := sextets_length bytes
  have pos := length_pos_of_ne_nil written
  rw [stripPadding_encode isBytes]
  apply ne_nil_of_length_pos
  rw [length_map,length]
  omega

end Codebot.Encodings
