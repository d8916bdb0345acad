import QuicWorkbench.Pcapng
import QuicWorkbench.Proofs.Secrets

/-!
# The secrets block

The block that is assembled for the lines of a key log is well formed, whatever the length of the text is modulo 4
(`wellFormed_secretsBlock`).
-/

namespace QuicWorkbench

theorem padding_succ {n : Nat} (h : n % 4 ≠ 0) : padding n = padding (n + 1) + 1 := by
  simp only [padding]
  omega

theorem padding_eq_zero {n : Nat} (h : n % 4 = 0) : padding n = 0 := by
  simp only [padding]
  omega

theorem toBeBytes_congr {m n : Nat} (h : m % 2 ^ 32 = n % 2 ^ 32) : toBeBytes m = toBeBytes n := by
  have h₁ : m / 2 ^ 24 % 256 = n / 2 ^ 24 % 256 := by omega
  have h₂ : m / 2 ^ 16 % 256 = n / 2 ^ 16 % 256 := by omega
  have h₃ : m / 2 ^ 8 % 256 = n / 2 ^ 8 % 256 := by omega
  have h₄ : m % 256 = n % 256 := by omega
  rw [toBeBytes, toBeBytes, h₁, h₂, h₃, h₄]

namespace Pcapng
open BigEndian

/-- The loop appends the missing zeros. -/
theorem padToBoundary_eq (fuel : Nat) (block : List UInt8) (hfuel : padding block.length ≤ fuel) :
    padToBoundary fuel block = block ++ List.replicate (padding block.length) 0 := by
  induction fuel generalizing block with
  | zero =>
    have hzero : padding block.length = 0 := Nat.le_zero.1 hfuel
    rw [padToBoundary, hzero, List.replicate_zero, List.append_nil]
  | succ fuel ih =>
    rw [padToBoundary]
    by_cases hlen : block.length % 4 = 0
    · rw [if_neg (not_not.2 hlen), padding_eq_zero hlen, List.replicate_zero, List.append_nil]
    · have hsucc := padding_succ hlen
      rw [if_pos hlen, ih (block ++ [0]) (by simp; omega), hsucc, List.append_assoc, List.length_append, List.length_singleton,
        List.replicate_succ]
      rfl

theorem setBytes_append (front bytes bytes' back : List UInt8) (h : bytes.length = bytes'.length) :
    setBytes (front ++ (bytes ++ back)) front.length bytes' = front ++ (bytes' ++ back) := by
  rw [setBytes, List.take_left, List.append_assoc, ← h, ← List.drop_drop, List.drop_left, List.drop_left]

/-- What is assembled is the block with the lengths in place. -/
theorem assembleSecretsBlock_eq (secrets : List UInt8) : assembleSecretsBlock secrets = secretsBlock secrets := by
  let body := toBeBytes blockType ++ [0, 0, 0, 0] ++ toBeBytes secretsType ++ toBeBytes secrets.length ++ secrets
  have hlength : body.length = 16 + secrets.length := by
    simp only [body, List.length_append, length_toBeBytes, List.length_cons, List.length_nil]
  have hpad : padToBoundary 4 body = body ++ List.replicate (padding (16 + secrets.length)) 0 := by
    rw [padToBoundary_eq 4 body (Nat.le_of_lt (padding_lt _)), hlength]
  have htotal : (body ++ List.replicate (padding (16 + secrets.length)) (0 : UInt8)).length =
      16 + secrets.length + padding (16 + secrets.length) := by
    rw [List.length_append, hlength, List.length_replicate]
  have hbytes : toBeBytes ((16 + secrets.length + padding (16 + secrets.length)) % 2 ^ 32 + 4) =
      toBeBytes (16 + secrets.length + padding (16 + secrets.length) + 4) := toBeBytes_congr (by omega)
  show setBytes (padToBoundary 4 body ++ toBeBytes ((padToBoundary 4 body).length % 2 ^ 32 + 4)) 4
    (toBeBytes ((padToBoundary 4 body).length % 2 ^ 32 + 4)) = secretsBlock secrets
  rw [hpad, htotal, hbytes]
  have hset := setBytes_append (toBeBytes blockType) [0, 0, 0, 0]
    (toBeBytes (16 + secrets.length + padding (16 + secrets.length) + 4))
    (toBeBytes secretsType ++ toBeBytes secrets.length ++ secrets ++
      List.replicate (padding (16 + secrets.length)) 0 ++ toBeBytes (16 + secrets.length + padding (16 + secrets.length) + 4)) rfl
  rw [length_toBeBytes] at hset
  simp only [List.append_assoc, body, secretsBlock] at hset ⊢
  exact hset

/-! ### Well-formed blocks -/

theorem toNat_toUInt8 (n : Nat) : (n % 256).toUInt8.toNat = n % 256 := by
  simp only [Nat.toUInt8_eq, UInt8.toNat_ofNat']
  omega

@[simp] theorem value_toBeBytes (n : Nat) : value (toBeBytes n) = n % 2 ^ 32 := by
  simp only [value, toBeBytes, List.foldl_cons, List.foldl_nil, toNat_toUInt8]
  omega

/-- The field of `n` bytes at `offset`. -/
def field (data : List UInt8) (offset n : Nat) : List UInt8 := (data.drop offset).take n

/-- What a block of secrets says, if it is one: its type, its length twice, the type and length of the secrets, the secrets
and less than four zeros. -/
def decodeSecretsBlock (block : List UInt8) : Option (List UInt8) :=
  let n := value (field block 12 4)
  let padding := block.length - (20 + n)
  if value (field block 0 4) = blockType ∧ value (field block 4 4) = block.length ∧ value (field block 8 4) = secretsType ∧
      20 + n ≤ block.length ∧ padding < 4 ∧ field block (16 + n) padding = List.replicate padding 0 ∧
      value (field block (block.length - 4) 4) = block.length then
    some (field block 16 n)
  else none

/-- What `RawBlock::from_slice` checks: a total length that is a multiple of 4, fits the input and equals the trailer. -/
def TotalLengthChecked (slice : List UInt8) : Prop :=
  ∃ total, value (field slice 4 4) = total ∧ 12 ≤ total ∧ total % 4 = 0 ∧ total ≤ slice.length ∧
    value (field slice (total - 4) 4) = total

theorem field_append (front bytes back : List UInt8) {offset n : Nat} (hoffset : front.length = offset) (hn : bytes.length = n) :
    field (front ++ (bytes ++ back)) offset n = bytes := by
  rw [field, List.drop_left' hoffset, List.take_left' hn]

/-- The fields of the block of a text. -/
structure SecretsFields (text block : List UInt8) : Prop where
  length : block.length = 20 + text.length + padding text.length
  type : value (field block 0 4) = blockType
  totalLength : value (field block 4 4) = block.length
  secretsType : value (field block 8 4) = secretsType
  secretsLength : value (field block 12 4) = text.length
  secrets : field block 16 text.length = text
  zeros : field block (16 + text.length) (padding text.length) = List.replicate (padding text.length) 0
  trailer : value (field block (block.length - 4) 4) = block.length

theorem secretsFields {text : List UInt8} (hfits : 20 + text.length + padding text.length < 2 ^ 32) :
    SecretsFields text (secretsBlock text) := by
  have hpadding : padding (16 + text.length) = padding text.length := by
    simp only [padding]
    omega
  generalize htotal : 20 + text.length + padding text.length = total at hfits
  have hmod : total % 2 ^ 32 = total := Nat.mod_eq_of_lt hfits
  have hsplit : secretsBlock text = toBeBytes blockType ++ toBeBytes total ++ toBeBytes secretsType ++
      toBeBytes text.length ++ (text ++ (List.replicate (padding text.length) 0 ++ toBeBytes total)) := by
    have hsum : 16 + text.length + padding text.length + 4 = total := by omega
    simp only [secretsBlock, hpadding, hsum, List.append_assoc]
  have hlength : (secretsBlock text).length = total := by
    simp only [hsplit, List.length_append, length_toBeBytes, List.length_replicate]
    omega
  have hfront : (toBeBytes blockType ++ toBeBytes total ++ toBeBytes secretsType ++ toBeBytes text.length).length = 16 := rfl
  have htrailer : field (secretsBlock text) (total - 4) 4 = toBeBytes total := by
    have hassoc : secretsBlock text = toBeBytes blockType ++ toBeBytes total ++ toBeBytes secretsType ++
        toBeBytes text.length ++ text ++ List.replicate (padding text.length) 0 ++ (toBeBytes total ++ []) := by
      simp only [hsplit, List.append_assoc, List.append_nil]
    rw [hassoc]
    refine field_append _ _ _ ?_ (length_toBeBytes total)
    simp only [List.length_append, length_toBeBytes, List.length_replicate]
    omega
  have hzeros : field (secretsBlock text) (16 + text.length) (padding text.length) = List.replicate (padding text.length) 0 := by
    rw [hsplit, ← List.append_assoc]
    exact field_append _ _ _ (by rw [List.length_append, hfront]) List.length_replicate
  refine ⟨by rw [hlength, htotal], ?_, ?_, ?_, ?_, ?_, hzeros, ?_⟩
  · rw [hsplit]
    rfl
  · rw [hlength, ← hmod, ← value_toBeBytes, hsplit]
    rfl
  · rw [hsplit]
    rfl
  · have hsecretsLength : field (secretsBlock text) 12 4 = toBeBytes text.length := by
      rw [hsplit]
      rfl
    rw [hsecretsLength, value_toBeBytes]
    omega
  · rw [hsplit]
    exact field_append _ _ _ hfront rfl
  · rw [hlength, htrailer, value_toBeBytes, hmod]

theorem joinLines_eq {lines : List (List UInt8)} (h : lines ≠ []) : joinLines lines = lines.flatMap (· ++ [lineBreak]) := by
  induction lines with
  | nil => exact absurd rfl h
  | cons line lines ih =>
    cases lines with
    | nil => simp [joinLines]
    | cons line' lines =>
      have hrest := ih (by simp)
      simp only [joinLines, List.intercalate_cons_cons, List.append_assoc, List.flatMap_cons] at hrest ⊢
      rw [hrest]

section
variable {text block : List UInt8} (hblock : SecretsFields text block)
include hblock

theorem SecretsFields.length_mod : block.length % 4 = 0 := by
  have hlength := hblock.length
  simp only [QuicWorkbench.padding] at hlength
  omega

theorem SecretsFields.decode : decodeSecretsBlock block = some text := by
  have hlength := hblock.length
  have hlt := padding_lt text.length
  have hpadding : block.length - (20 + text.length) = padding text.length := by omega
  have hfits : 20 + text.length ≤ block.length := by omega
  simp only [decodeSecretsBlock, hblock.secretsLength, hblock.secrets, hpadding]
  exact if_pos ⟨hblock.type, hblock.totalLength, hblock.secretsType, hfits, hlt, hblock.zeros, hblock.trailer⟩

theorem SecretsFields.totalLengthChecked : TotalLengthChecked block := by
  have hlength := hblock.length
  exact ⟨block.length, hblock.totalLength, by omega, hblock.length_mod, Nat.le_refl _, hblock.trailer⟩

end

/-- The block of the lines of a key log is well formed: its length is a multiple of 4 and the same in all places, so that the
library accepts it, and it has the lines, each with its line break, in order. -/
theorem wellFormed_secretsBlock (lines : List (List UInt8)) (hlines : lines ≠ [])
    (hfits : 20 + (joinLines lines).length + padding (joinLines lines).length < 2 ^ 32) :
    (assembleSecretsBlock (joinLines lines)).length % 4 = 0 ∧
      value (field (assembleSecretsBlock (joinLines lines)) 4 4) = (assembleSecretsBlock (joinLines lines)).length ∧
      value (field (assembleSecretsBlock (joinLines lines)) ((assembleSecretsBlock (joinLines lines)).length - 4) 4) =
        (assembleSecretsBlock (joinLines lines)).length ∧
      decodeSecretsBlock (assembleSecretsBlock (joinLines lines)) = some (lines.flatMap (· ++ [lineBreak])) ∧
      ((∀ line ∈ lines, lineBreak ∉ line) → (lines.flatMap (· ++ [lineBreak])).splitOn lineBreak = lines ++ [[]]) ∧
      ∀ (RawBlock : Type) (fromSlice : List UInt8 → Option RawBlock),
        (∀ slice, TotalLengthChecked slice → (fromSlice slice).isSome) →
        (fromSlice (assembleSecretsBlock (joinLines lines))).isSome := by
  have hblock := secretsFields hfits
  rw [← assembleSecretsBlock_eq] at hblock
  refine ⟨hblock.length_mod, hblock.totalLength, hblock.trailer, ?_, ?_, ?_⟩
  · rw [← joinLines_eq hlines]
    exact hblock.decode
  · intro hbreaks
    rw [← joinLines_eq hlines]
    exact splitOn_joinLines hlines hbreaks
  · intro RawBlock fromSlice haccepts
    exact haccepts _ hblock.totalLengthChecked

/-- The text of five lines of one letter has 10 bytes, so its block has two zeros of padding. -/
theorem wellFormed_secretsBlock_letters :
    value (field (assembleSecretsBlock (joinLines [[97], [98], [99], [100], [101]])) 4 4) =
        (assembleSecretsBlock (joinLines [[97], [98], [99], [100], [101]])).length ∧
      decodeSecretsBlock (assembleSecretsBlock (joinLines [[97], [98], [99], [100], [101]])) =
        some ([[97], [98], [99], [100], [101]].flatMap (· ++ [lineBreak])) := by
  obtain ⟨-, htotal, -, hdecode, -⟩ := wellFormed_secretsBlock [[97], [98], [99], [100], [101]] (by simp) (by decide)
  exact ⟨htotal, hdecode⟩

end Pcapng
end QuicWorkbench
