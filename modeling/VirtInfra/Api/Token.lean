import VirtInfra.Python.Strings
import Mathlib.Data.List.Nodup

/-!
# `Token` — the text of an API key (`21_api_v1.py`)

A key is issued as one text, `bwm_live_<id>_<secret>`, and comes back in an `Authorization` header. The id has twelve
hexadecimal digits; the secret is random and its alphabet has the separator in it, so that only the first three separators
may be taken for one.
-/

namespace VirtInfra.Api

open Python

/-- `API_KEY_PREFIX`. -/
def apiKeyPrefix : List Char := ['b', 'w', 'm', '_', 'l', 'i', 'v', 'e']

/-! ## Random texts -/

abbrev Byte := Fin 256

def byte (n : Nat) : Byte := Fin.ofNat 256 n

/-- `secrets.token_hex`, of the bytes it draws. -/
def tokenHex (bytes : List Byte) : List Char :=
  bytes.flatMap fun byte => [Nat.digitChar (byte.val / 16), Nat.digitChar (byte.val % 16)]

/-- The alphabet of `urlsafe_b64encode`. -/
def urlsafeChar (n : Nat) : Char :=
  if n < 26 then Char.ofNat (n + 65)
  else if n < 52 then Char.ofNat (n + 71)
  else if n < 62 then Char.ofNat (n - 4)
  else if n = 62 then '-' else '_'

/-- `secrets.token_urlsafe`: base 64 without padding. -/
def tokenUrlsafe : List Byte → List Char
  | a :: b :: c :: rest =>
      urlsafeChar (a.val / 4) :: urlsafeChar (a.val % 4 * 16 + b.val / 16) ::
        urlsafeChar (b.val % 16 * 4 + c.val / 64) :: urlsafeChar (c.val % 64) :: tokenUrlsafe rest
  | [a, b] =>
      [urlsafeChar (a.val / 4), urlsafeChar (a.val % 4 * 16 + b.val / 16), urlsafeChar (b.val % 16 * 4)]
  | [a] => [urlsafeChar (a.val / 4), urlsafeChar (a.val % 4 * 16)]
  | [] => []

/-- **What is drawn for a key.** -/
@[ext] structure Draw where
  keyBytes : List Byte
  secretBytes : List Byte
  keyBytes_length : keyBytes.length = 6
  secretBytes_length : secretBytes.length = 32

def Draw.keyId (draw : Draw) : String := String.ofList (tokenHex draw.keyBytes)

def Draw.secret (draw : Draw) : String := String.ofList (tokenUrlsafe draw.secretBytes)

/-- `f"{API_KEY_PREFIX}_{key_id}_{secret}"`. -/
def tokenText (keyId secret : String) : String :=
  String.ofList (apiKeyPrefix ++ '_' :: (keyId.toList ++ '_' :: secret.toList))

/-- **`_api_generate_token`.** -/
def apiGenerateToken (draw : Draw) : String × String × String :=
  (draw.keyId, draw.secret, tokenText draw.keyId draw.secret)

/-! ## Reading a token -/

/-- `"0123456789abcdef"`. -/
def isHexDigit (c : Char) : Bool := ('0' ≤ c && c ≤ '9') || ('a' ≤ c && c ≤ 'f')

/-- **`_api_parse_token`.** -/
def apiParseToken (token : String) : Option (String × String) :=
  match splitMax '_' 3 (strip token).toList with
  | [vendor, mode, id, rest] =>
      if vendor = ['b', 'w', 'm'] ∧ mode = ['l', 'i', 'v', 'e'] then
        let keyId := lower (strip (String.ofList id))
        let secret := strip (String.ofList rest)
        if keyId.toList.length = 12 ∧ keyId.toList.all isHexDigit = true then
          if 32 ≤ secret.toList.length ∧ secret.toList.length ≤ 256 then some (keyId, secret) else none
        else none
      else none
  | _ => none

/-- **`_api_extract_bearer`**, of the `Authorization` header. -/
def apiExtractBearer (header : String) : String :=
  match partition ' ' (strip header).toList with
  | none => ""
  | some (scheme, value) => if lower (String.ofList scheme) = "bearer" then strip (String.ofList value) else ""

/-! ## The alphabets -/

theorem digitChar_inj {m n : Nat} (hm : m < 16) (hn : n < 16) (h : Nat.digitChar m = Nat.digitChar n) : m = n := by
  have hnodup : ((List.range 16).map Nat.digitChar).Nodup := by decide
  exact List.inj_on_of_nodup_map hnodup (List.mem_range.mpr hm) (List.mem_range.mpr hn) h

theorem urlsafeChar_inj {m n : Nat} (hm : m < 64) (hn : n < 64) (h : urlsafeChar m = urlsafeChar n) : m = n := by
  have hnodup : ((List.range 64).map urlsafeChar).Nodup := by decide +kernel
  exact List.inj_on_of_nodup_map hnodup (List.mem_range.mpr hm) (List.mem_range.mpr hn) h

theorem isHexDigit_digitChar {n : Nat} (hn : n < 16) : isHexDigit (Nat.digitChar n) = true := by
  have hall : ((List.range 16).all fun n => isHexDigit (Nat.digitChar n)) = true := by decide
  exact List.all_eq_true.mp hall n (List.mem_range.mpr hn)

theorem isSpace_urlsafeChar {n : Nat} (hn : n < 64) : isSpace (urlsafeChar n) = false := by
  have hall : ((List.range 64).all fun n => !isSpace (urlsafeChar n)) = true := by decide +kernel
  simpa using List.all_eq_true.mp hall n (List.mem_range.mpr hn)

/-- What a hexadecimal digit is to the reader of a token. -/
theorem hexDigit_plain {c : Char} (h : isHexDigit c = true) : isSpace c = false ∧ c ≠ '_' ∧ c.toLower = c := by
  have hrange : (48 ≤ c.toNat ∧ c.toNat ≤ 57) ∨ (97 ≤ c.toNat ∧ c.toNat ≤ 102) := by
    simpa [isHexDigit, Char.le_def, UInt32.le_iff_toNat_le] using h
  refine ⟨?_, ?_, ?_⟩
  · simp only [isSpace, Bool.or_eq_false_iff, Bool.and_eq_false_iff, decide_eq_false_iff_not, beq_eq_false_iff_ne]
    omega
  · rintro rfl
    revert hrange
    decide
  · unfold Char.toLower
    rw [dif_neg]
    simp only [ge_iff_le, UInt32.le_iff_toNat_le]
    have hA : 'A'.val.toNat = 65 := rfl
    have hZ : 'Z'.val.toNat = 90 := rfl
    have hval : c.val.toNat = c.toNat := rfl
    omega

/-! ## What was drawn can be read off -/

theorem length_tokenHex (bytes : List Byte) : (tokenHex bytes).length = 2 * bytes.length := by
  induction bytes with
  | nil => rfl
  | cons byte rest ih =>
      rw [tokenHex, List.flatMap_cons, List.length_append, ← tokenHex, ih, List.length_cons, List.length_cons,
        List.length_cons, List.length_nil]
      omega

theorem length_tokenUrlsafe (bytes : List Byte) : (tokenUrlsafe bytes).length = (bytes.length * 4 + 2) / 3 := by
  fun_induction tokenUrlsafe bytes with
  | case1 a b c rest ih =>
      simp only [List.length_cons, ih]
      omega
  | case2 => simp
  | case3 => simp
  | case4 => rfl

theorem isHexDigit_of_mem_tokenHex {bytes : List Byte} {c : Char} (hc : c ∈ tokenHex bytes) : isHexDigit c = true := by
  obtain ⟨byte, -, hc⟩ := List.mem_flatMap.mp hc
  have hbyte := byte.isLt
  rcases List.mem_cons.mp hc with rfl | hc
  · exact isHexDigit_digitChar (by omega)
  · rw [List.mem_singleton.mp hc]
    exact isHexDigit_digitChar (by omega)

theorem isSpace_of_mem_tokenUrlsafe {bytes : List Byte} {c : Char} (hc : c ∈ tokenUrlsafe bytes) :
    isSpace c = false := by
  fun_induction tokenUrlsafe bytes with
  | case1 a b d rest ih =>
      simp only [List.mem_cons] at hc
      rcases hc with rfl | rfl | rfl | rfl | hc
      · exact isSpace_urlsafeChar (by omega)
      · exact isSpace_urlsafeChar (by omega)
      · exact isSpace_urlsafeChar (by omega)
      · exact isSpace_urlsafeChar (by omega)
      · exact ih hc
  | case2 a b =>
      simp only [List.mem_cons, List.not_mem_nil, or_false] at hc
      rcases hc with rfl | rfl | rfl <;> exact isSpace_urlsafeChar (by omega)
  | case3 a =>
      simp only [List.mem_cons, List.not_mem_nil, or_false] at hc
      rcases hc with rfl | rfl <;> exact isSpace_urlsafeChar (by omega)
  | case4 => cases hc

/-- The two digits of a byte. -/
theorem tokenHex_inj {a b : List Byte} (h : tokenHex a = tokenHex b) : a = b := by
  induction a generalizing b with
  | nil =>
      cases b with
      | nil => rfl
      | cons byte rest => cases h
  | cons byte rest ih =>
      cases b with
      | nil => cases h
      | cons byte' rest' =>
          obtain ⟨hhigh, hmore⟩ := List.cons.inj h
          obtain ⟨hlow, hrest⟩ := List.cons.inj hmore
          have hhigh := digitChar_inj (by omega) (by omega) hhigh
          have hlow := digitChar_inj (by omega) (by omega) hlow
          rw [show byte = byte' from Fin.ext (by omega), ih hrest]

/-- Six bits of three bytes are in each of four characters. -/
theorem tokenUrlsafe_inj {l l' : List Byte} (h : tokenUrlsafe l = tokenUrlsafe l') : l = l' := by
  have hlength : (l.length * 4 + 2) / 3 = (l'.length * 4 + 2) / 3 := by
    rw [← length_tokenUrlsafe, ← length_tokenUrlsafe, h]
  fun_induction tokenUrlsafe l generalizing l' with
  | case1 a b c rest ih =>
      match l', hlength, h with
      | a' :: b' :: c' :: rest', _, h =>
          simp only [tokenUrlsafe, List.cons.injEq] at h
          obtain ⟨h₁, h₂, h₃, h₄, hrest⟩ := h
          have h₁ := urlsafeChar_inj (by omega) (by omega) h₁
          have h₂ := urlsafeChar_inj (by omega) (by omega) h₂
          have h₃ := urlsafeChar_inj (by omega) (by omega) h₃
          have h₄ := urlsafeChar_inj (by omega) (by omega) h₄
          have hrest : rest = rest' := ih hrest (by rw [← length_tokenUrlsafe, ← length_tokenUrlsafe, hrest])
          rw [show a = a' from Fin.ext (by omega), show b = b' from Fin.ext (by omega),
            show c = c' from Fin.ext (by omega), hrest]
      | [], hlength, _ | [_], hlength, _ | [_, _], hlength, _ =>
          simp only [List.length_cons, List.length_nil] at hlength
          omega
  | case2 a b =>
      match l', hlength, h with
      | [a', b'], _, h =>
          simp only [tokenUrlsafe, List.cons.injEq, and_true] at h
          obtain ⟨h₁, h₂, h₃⟩ := h
          have h₁ := urlsafeChar_inj (by omega) (by omega) h₁
          have h₂ := urlsafeChar_inj (by omega) (by omega) h₂
          have h₃ := urlsafeChar_inj (by omega) (by omega) h₃
          rw [show a = a' from Fin.ext (by omega), show b = b' from Fin.ext (by omega)]
      | [], hlength, _ | [_], hlength, _ | _ :: _ :: _ :: _, hlength, _ =>
          simp only [List.length_cons, List.length_nil] at hlength
          omega
  | case3 a =>
      match l', hlength, h with
      | [a'], _, h =>
          simp only [tokenUrlsafe, List.cons.injEq, and_true] at h
          have h₁ := urlsafeChar_inj (by omega) (by omega) h.1
          have h₂ := urlsafeChar_inj (by omega) (by omega) h.2
          rw [show a = a' from Fin.ext (by omega)]
      | [], hlength, _ | _ :: _ :: _, hlength, _ =>
          simp only [List.length_cons, List.length_nil] at hlength
          omega
  | case4 =>
      match l', hlength with
      | [], _ => rfl
      | _ :: _, hlength =>
          simp only [List.length_cons, List.length_nil] at hlength
          omega

/-! ## Round trips -/

/-- A key id and a secret that a token can carry. -/
structure Carried (keyId secret : String) : Prop where
  keyId_length : keyId.toList.length = 12
  hex : ∀ c ∈ keyId.toList, isHexDigit c = true
  secret_length : 32 ≤ secret.toList.length ∧ secret.toList.length ≤ 256
  trim : Trim secret.toList

theorem lower_of_hex {text : String} (h : ∀ c ∈ text.toList, isHexDigit c = true) : lower text = text := by
  unfold lower
  rw [(List.map_congr_left fun c hc => (hexDigit_plain (h c hc)).2.2).trans (List.map_id' _), String.ofList_toList]

theorem Carried.draw (draw : Draw) : Carried draw.keyId draw.secret where
  keyId_length := by rw [Draw.keyId, String.toList_ofList, length_tokenHex, draw.keyBytes_length]
  hex c hc := by
    rw [Draw.keyId, String.toList_ofList] at hc
    exact isHexDigit_of_mem_tokenHex hc
  secret_length := by
    rw [Draw.secret, String.toList_ofList, length_tokenUrlsafe, draw.secretBytes_length]
    decide
  trim := by
    rw [Draw.secret, String.toList_ofList]
    exact Trim.of_no_space fun c hc => isSpace_of_mem_tokenUrlsafe hc

section Carried

variable {keyId secret : String} (h : Carried keyId secret)
include h

theorem Carried.trim_tokenText : Trim (tokenText keyId secret).toList := by
  have hne : secret.toList ≠ [] := fun hnil => absurd h.secret_length.1 (by rw [hnil]; decide)
  rw [tokenText, String.toList_ofList]
  refine ⟨fun c hc => ?_, fun c hc => ?_⟩
  · obtain rfl : 'b' = c := Option.some.inj hc
    rfl
  · rw [List.getLast?_append_of_ne_nil _ (by simp), List.getLast?_cons_of_ne_nil (by simp),
      List.getLast?_append_of_ne_nil _ (by simp), List.getLast?_cons_of_ne_nil hne] at hc
    exact h.trim.last c hc

/-- **A token is read as it was written**, with the separators of its secret. -/
theorem Carried.parse : apiParseToken (tokenText keyId secret) = some (keyId, secret) := by
  have hkeyId : '_' ∉ keyId.toList := fun hc => (hexDigit_plain (h.hex _ hc)).2.1 rfl
  have hstrip : strip (tokenText keyId secret) = tokenText keyId secret := by
    simpa using strip_of_trim h.trim_tokenText
  have hid : strip keyId = keyId := by
    simpa using strip_of_trim (Trim.of_no_space fun c hc => (hexDigit_plain (h.hex c hc)).1)
  have hsecret : strip secret = secret := by simpa using strip_of_trim h.trim
  have hsplit : splitMax '_' 3 (tokenText keyId secret).toList =
      [['b', 'w', 'm'], ['l', 'i', 'v', 'e'], keyId.toList, secret.toList] := by
    rw [tokenText, String.toList_ofList]
    refine (splitMax_field _ (by decide : '_' ∉ ['b', 'w', 'm']) 2).trans ?_
    refine congrArg _ ((splitMax_field _ (by decide : '_' ∉ ['l', 'i', 'v', 'e']) 1).trans ?_)
    exact congrArg _ (splitMax_field _ hkeyId 0)
  unfold apiParseToken
  rw [hstrip, hsplit]
  simp only [String.ofList_toList, hid, hsecret, lower_of_hex h.hex]
  rw [if_pos ⟨trivial, trivial⟩, if_pos ⟨h.keyId_length, List.all_eq_true.mpr h.hex⟩, if_pos h.secret_length]

end Carried

/-- A blank is in lower case. -/
theorem toLower_space {c : Char} (h : isSpace c = true) : c.toLower = c := by
  unfold Char.toLower
  rw [dif_neg]
  simp only [isSpace, Bool.or_eq_true, Bool.and_eq_true, decide_eq_true_eq, beq_iff_eq] at h
  simp only [ge_iff_le, UInt32.le_iff_toNat_le]
  have hA : 'A'.val.toNat = 65 := rfl
  have hZ : 'Z'.val.toNat = 90 := rfl
  have hval : c.val.toNat = c.toNat := rfl
  omega

theorem no_space_of_lower {scheme : List Char} (h : lower (String.ofList scheme) = "bearer") :
    ∀ c ∈ scheme, isSpace c = false := by
  intro c hc
  have hmap : scheme.map Char.toLower = ['b', 'e', 'a', 'r', 'e', 'r'] := by
    have h := congrArg String.toList h
    rwa [lower, String.toList_ofList, String.toList_ofList] at h
  by_contra hspace
  have hmem : c ∈ ['b', 'e', 'a', 'r', 'e', 'r'] := by
    rw [← hmap]
    exact List.mem_map.mpr ⟨c, hc, toLower_space (by simpa using hspace)⟩
  revert hspace
  simp only [List.mem_cons, List.not_mem_nil, or_false] at hmem
  rcases hmem with rfl | rfl | rfl | rfl | rfl | rfl <;> decide

/-- **A token is taken out of its header**, whatever blanks are around the scheme and the token. -/
theorem Carried.extract {keyId secret : String} (h : Carried keyId secret) {before scheme between after : List Char}
    (hbefore : ∀ c ∈ before, isSpace c = true) (hbetween : ∀ c ∈ between, isSpace c = true)
    (hafter : ∀ c ∈ after, isSpace c = true) (hscheme : lower (String.ofList scheme) = "bearer") :
    apiExtractBearer (String.ofList (before ++
        (scheme ++ ' ' :: (between ++ (tokenText keyId secret).toList) ++ after))) = tokenText keyId secret := by
  have htoken := h.trim_tokenText
  have hplain := no_space_of_lower hscheme
  have hne : scheme ≠ [] := by
    rintro rfl
    exact absurd hscheme (by decide)
  have hne' : (tokenText keyId secret).toList ≠ [] := by
    rw [tokenText, String.toList_ofList]
    simp [apiKeyPrefix]
  -- The header without the blanks around it begins with the scheme and ends with the token.
  have htrim : Trim (scheme ++ ' ' :: (between ++ (tokenText keyId secret).toList)) := by
    refine ⟨fun c hc => ?_, fun c hc => ?_⟩
    · rw [List.head?_append_of_ne_nil _ hne] at hc
      exact (Trim.of_no_space hplain).head c hc
    · rw [List.getLast?_append_of_ne_nil _ (by simp), List.getLast?_cons_of_ne_nil (by simp [hne']),
        List.getLast?_append_of_ne_nil _ hne'] at hc
      exact htoken.last c hc
  have hfield : ' ' ∉ scheme := fun hc => absurd (hplain ' ' hc) (by decide)
  have hvalue : strip (String.ofList (between ++ (tokenText keyId secret).toList)) = tokenText keyId secret := by
    simpa using strip_blanks hbetween no_blanks htoken
  unfold apiExtractBearer
  rw [strip_blanks hbefore hafter htrim, String.toList_ofList, partition_field _ hfield]
  simp only [hscheme, if_pos, hvalue]

/-- **A generated key comes back from the header.** Whatever blanks are around the scheme and the token and however the
scheme is written, the id and the secret are the ones that were issued; and no other draw has the same token. -/
theorem generated_token_authenticates (draw : Draw) {before scheme between after : List Char}
    (hbefore : ∀ c ∈ before, isSpace c = true) (hbetween : ∀ c ∈ between, isSpace c = true)
    (hafter : ∀ c ∈ after, isSpace c = true) (hscheme : lower (String.ofList scheme) = "bearer") :
    apiParseToken (apiExtractBearer (String.ofList (before ++
        (scheme ++ ' ' :: (between ++ (apiGenerateToken draw).2.2.toList) ++ after)))) = some (draw.keyId, draw.secret) ∧
      ∀ draw', (apiGenerateToken draw').2.2 = (apiGenerateToken draw).2.2 → draw' = draw := by
  have hcarried := Carried.draw draw
  constructor
  · exact (congrArg apiParseToken (hcarried.extract hbefore hbetween hafter hscheme)).trans hcarried.parse
  · intro draw' heq
    have hparse := (Carried.draw draw').parse
    rw [show tokenText draw'.keyId draw'.secret = tokenText draw.keyId draw.secret from heq, hcarried.parse] at hparse
    obtain ⟨hkeyId, hsecret⟩ := Prod.mk.inj (Option.some.inj hparse)
    exact Draw.ext (tokenHex_inj (String.ofList_injective hkeyId)).symm (tokenUrlsafe_inj (String.ofList_injective hsecret)).symm

/-- The draw of one byte for the key id and of another one for the secret. -/
def Draw.uniform (key secret : Nat) : Draw where
  keyBytes := List.replicate 6 (byte key)
  secretBytes := List.replicate 32 (byte secret)
  keyBytes_length := List.length_replicate
  secretBytes_length := List.length_replicate

/-- A draw whose secret has separators in it. -/
def underscores : Draw := .uniform 171 255

theorem underscores_authenticate :
    apiParseToken (apiExtractBearer (String.ofList ([' '] ++
        (['B', 'E', 'A', 'R', 'E', 'R'] ++ ' ' :: ([' ', '\t'] ++ (apiGenerateToken underscores).2.2.toList) ++
          ['\r', '\n'])))) = some (underscores.keyId, underscores.secret) ∧
      ∀ draw', (apiGenerateToken draw').2.2 = (apiGenerateToken underscores).2.2 → draw' = underscores :=
  generated_token_authenticates underscores (by simp; decide) (by simp; decide) (by simp; decide) (by decide)

end VirtInfra.Api
