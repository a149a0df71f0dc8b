/-
What `json.dumps` writes, `json.loads` reads back.  The proof goes through the
text piece by piece: a piece is read off the front of the text whatever comes
behind it, as long as that cannot be taken for a part of the piece.
-/
import Conductor.Python.Json
import Mathlib.Data.List.TakeWhile

namespace Conductor

namespace Json

/-! ### Characters and strings -/

theorem expect_self (c : Char) (rest : List Char) : expect c (c :: rest) = some rest :=
  if_pos rfl

theorem expect_of_ne {c d : Char} (hne : d ≠ c) (rest : List Char) :
    expect c (d :: rest) = none :=
  if_neg hne

theorem hexValue_hexDigit {n : Nat} (hn : n < 16) : hexValue (hexDigit n) = some n := by
  have hall : ∀ m : Fin 16, hexValue (hexDigit m) = some m.val := by decide
  exact hall ⟨n, hn⟩

theorem readUnit_jsonUnit {n : Nat} (hn : n < 65536) (rest : List Char) :
    readUnit ((jsonUnit n).drop 2 ++ rest) = some (n, rest) := by
  simp only [jsonUnit, List.drop_succ_cons, List.drop_zero, List.cons_append, List.nil_append,
    readUnit, hexValue_hexDigit (show n / 4096 < 16 by omega),
    hexValue_hexDigit (Nat.mod_lt _ (by omega))]
  rw [Option.some.injEq, Prod.mk.injEq]
  exact ⟨by omega, rfl⟩

theorem charOf_toNat (c : Char) : charOf c.toNat = c := by
  have hvalid : c.toNat.isValidChar := c.valid
  rw [charOf, if_pos hvalid, Char.ofNat_toNat]

/-- A character is no surrogate. -/
theorem valid_bounds (c : Char) :
    c.toNat < 1114112 ∧ ¬(55296 ≤ c.toNat ∧ c.toNat < 57344) := by
  have hvalid : c.toNat.isValidChar := c.valid
  unfold Nat.isValidChar at hvalid
  omega

theorem readEscapedUnit_jsonUnit (c : Char) (hc : c.toNat < 65536) (rest : List Char) :
    readEscapedUnit ((jsonUnit c.toNat).drop 2 ++ rest) = .ok (c, rest) := by
  have hbounds := valid_bounds c
  rw [readEscapedUnit, readUnit_jsonUnit hc]
  dsimp only
  rw [if_neg (by omega), charOf_toNat]

theorem jsonUnit_append (n : Nat) (rest : List Char) :
    jsonUnit n ++ rest = '\\' :: 'u' :: ((jsonUnit n).drop 2 ++ rest) := rfl

theorem readEscapedUnit_pair {high low : Nat} (hhigh : 55296 ≤ high ∧ high < 56320)
    (hlow : 56320 ≤ low ∧ low < 57344) (rest : List Char) :
    readEscapedUnit ((jsonUnit high).drop 2 ++ (jsonUnit low ++ rest)) =
      .ok (charOf (65536 + (high - 55296) * 1024 + (low - 56320)), rest) := by
  rw [readEscapedUnit, readUnit_jsonUnit (by omega)]
  dsimp only
  rw [if_pos hhigh, jsonUnit_append, expect_self, Option.bind_some, expect_self]
  dsimp only
  rw [readUnit_jsonUnit (by omega)]
  dsimp only
  rw [if_pos hlow]

theorem readChar_unit (cs : List Char) : readChar ('\\' :: 'u' :: cs) = readEscapedUnit cs := by
  simp [readChar]

theorem readChar_letter {e c : Char} (hletter : e ≠ 'u') (hescape : unescape e = some c)
    (cs : List Char) : readChar ('\\' :: e :: cs) = .ok (c, cs) := by
  simp [readChar, hletter, hescape]

theorem readChar_plain {c : Char} (hslash : c ≠ '\\') (hcontrol : 32 ≤ c.toNat)
    (cs : List Char) : readChar (c :: cs) = .ok (c, cs) := by
  simp [readChar, hslash, Nat.not_lt.mpr hcontrol]

theorem eq_ofNat {c : Char} {n : Nat} (hn : c.toNat = n) : c = Char.ofNat n := by
  rw [← hn, Char.ofNat_toNat]

theorem readChar_jsonChar (c : Char) (rest : List Char) :
    readChar (jsonChar c ++ rest) = .ok (c, rest) := by
  have hbounds := valid_bounds c
  unfold jsonChar
  dsimp only
  split_ifs with hquote hbackslash hback htab hline hform hreturn hplain hunit
  · obtain rfl := eq_ofNat hquote
    exact readChar_letter (by decide) (by decide) rest
  · obtain rfl := eq_ofNat hbackslash
    exact readChar_letter (by decide) (by decide) rest
  · obtain rfl := eq_ofNat hback
    exact readChar_letter (by decide) (by decide) rest
  · obtain rfl := eq_ofNat htab
    exact readChar_letter (by decide) (by decide) rest
  · obtain rfl := eq_ofNat hline
    exact readChar_letter (by decide) (by decide) rest
  · obtain rfl := eq_ofNat hform
    exact readChar_letter (by decide) (by decide) rest
  · obtain rfl := eq_ofNat hreturn
    exact readChar_letter (by decide) (by decide) rest
  · have hslash : c ≠ '\\' := fun h => hbackslash (congrArg Char.toNat h)
    exact readChar_plain hslash hplain.1 rest
  · rw [jsonUnit_append, readChar_unit]
    exact readEscapedUnit_jsonUnit c hunit rest
  · rw [List.append_assoc, jsonUnit_append, readChar_unit, readEscapedUnit_pair (by omega)
      (by omega)]
    have hsum : 65536 + (55296 + (c.toNat - 65536) / 1024 - 55296) * 1024 +
        (56320 + (c.toNat - 65536) % 1024 - 56320) = c.toNat := by omega
    rw [hsum, charOf_toNat]

/-- An escaped character does not begin with the closing quote. -/
theorem jsonChar_head (c : Char) : ∃ d ds, jsonChar c = d :: ds ∧ d ≠ '"' := by
  unfold jsonChar
  dsimp only
  split_ifs with hquote hbackslash hback htab hline hform hreturn hplain hunit
  all_goals first
    | exact ⟨'\\', _, rfl, by decide⟩
    | exact ⟨c, [], rfl, fun h => hquote (congrArg Char.toNat h)⟩

theorem readString_quoted {fuel : Nat} (s rest : List Char) (hfuel : s.length < fuel) :
    readString fuel (s.flatMap jsonChar ++ '"' :: rest) = .ok (s, rest) := by
  induction s generalizing fuel with
  | nil =>
      obtain ⟨fuel, rfl⟩ := Nat.exists_eq_add_of_lt hfuel
      rfl
  | cons c s ih =>
      have hfuel0 : fuel ≠ 0 := Nat.ne_of_gt (Nat.zero_lt_of_lt hfuel)
      obtain ⟨fuel, rfl⟩ := Nat.exists_eq_add_one_of_ne_zero hfuel0
      obtain ⟨d, ds, hhead, hquote⟩ := jsonChar_head c
      have hread := readChar_jsonChar c (s.flatMap jsonChar ++ '"' :: rest)
      rw [hhead] at hread
      rw [List.flatMap_cons, List.append_assoc, hhead, List.cons_append, readString.eq_def]
      dsimp only
      rw [if_neg hquote, ← List.cons_append, hread]
      dsimp only
      rw [ih (Nat.lt_of_succ_lt_succ hfuel)]
      rfl

theorem length_le_flatMap_jsonChar (s : List Char) :
    s.length ≤ (s.flatMap jsonChar).length := by
  induction s with
  | nil => exact Nat.le_refl 0
  | cons c s ih =>
      obtain ⟨d, ds, hhead, -⟩ := jsonChar_head c
      rw [List.flatMap_cons, hhead]
      simp only [List.length_cons, List.length_append]
      omega

/-- A quoted string is read with the fuel that its text gives. -/
theorem readString_of_quoted (s : String) (rest : List Char) :
    readString (s.toList.flatMap jsonChar ++ '"' :: rest).length
      (s.toList.flatMap jsonChar ++ '"' :: rest) = .ok (s.toList, rest) := by
  refine readString_quoted _ _ ?_
  have hlength := length_le_flatMap_jsonChar s.toList
  simp only [List.length_append, List.length_cons]
  omega

/-! ### Numbers -/

/-- What comes behind a value cannot be taken for a part of a number. -/
def Delimited (rest : List Char) : Prop :=
  ∀ c ∈ rest.head?, c.isDigit = false ∧ c ∉ ['.', 'e', 'E', '+', '-']

theorem delimited_nil : Delimited [] := by
  simp [Delimited]

theorem delimited_cons {c : Char} {rest : List Char} (hdigit : c.isDigit = false)
    (hother : c ∉ ['.', 'e', 'E', '+', '-']) : Delimited (c :: rest) := by
  rintro _ ⟨⟩
  exact ⟨hdigit, hother⟩

/-- A scan that has not come to the end of its text is not moved by what is
appended to it; nor is one that the appended text stops. -/
theorem scan_append {p : Char → Bool} {rest : List Char} (hstop : ∀ c ∈ rest.head?, p c = false)
    (cs : List Char) : (cs ++ rest).takeWhile p = cs.takeWhile p ∧
      (cs ++ rest).dropWhile p = cs.dropWhile p ++ rest := by
  induction cs with
  | nil =>
      cases rest with
      | nil => exact ⟨rfl, rfl⟩
      | cons c rest =>
          have hc : ¬ p c = true := Bool.eq_false_iff.mp (hstop c rfl)
          exact ⟨List.takeWhile_cons_of_neg hc, List.dropWhile_cons_of_neg hc⟩
  | cons c cs ih =>
      by_cases hc : p c = true
      · simp only [List.cons_append, List.takeWhile_cons_of_pos hc, List.dropWhile_cons_of_pos hc]
        exact ⟨congrArg _ ih.1, ih.2⟩
      · simp [hc]

section Delimited

variable {rest : List Char} (hrest : Delimited rest)

include hrest

theorem Delimited.digits (cs : List Char) :
    (cs ++ rest).takeWhile Char.isDigit = cs.takeWhile Char.isDigit ∧
      (cs ++ rest).dropWhile Char.isDigit = cs.dropWhile Char.isDigit ++ rest :=
  scan_append (fun c hc => (hrest c hc).1) cs

theorem Delimited.expect {c : Char} (hc : c.isDigit = true ∨ c ∈ ['.', 'e', 'E', '+', '-'])
    (cs : List Char) :
    Json.expect c (cs ++ rest) = (Json.expect c cs).map (· ++ rest) := by
  cases cs with
  | cons d cs =>
      rw [List.cons_append, Json.expect, Json.expect]
      split <;> rfl
  | nil =>
      cases rest with
      | nil => rfl
      | cons d rest =>
          refine expect_of_ne ?_ rest
          rintro rfl
          obtain ⟨hdigit, hother⟩ := hrest d rfl
          rcases hc with hc | hc
          · rw [hdigit] at hc
            cases hc
          · exact hother hc

theorem readFraction_append (cs : List Char) :
    readFraction (cs ++ rest) = ((readFraction cs).1, (readFraction cs).2 ++ rest) := by
  unfold readFraction
  rw [hrest.expect (by simp)]
  cases Json.expect '.' cs with
  | none => rfl
  | some cs' =>
      obtain ⟨htake, hdrop⟩ := hrest.digits cs'
      simp only [Option.map_some, htake, hdrop]
      split <;> rfl

theorem readExponentDigits_append (before cs all : List Char) :
    readExponentDigits before (cs ++ rest) (all ++ rest) =
      ((readExponentDigits before cs all).1, (readExponentDigits before cs all).2 ++ rest) := by
  unfold readExponentDigits
  obtain ⟨htake, hdrop⟩ := hrest.digits cs
  simp only [htake, hdrop]
  split <;> rfl

theorem readExponent_append (cs : List Char) :
    readExponent (cs ++ rest) = ((readExponent cs).1, (readExponent cs).2 ++ rest) := by
  match cs with
  | [] =>
      cases rest with
      | nil => rfl
      | cons c rest =>
          obtain ⟨-, hother⟩ := hrest c rfl
          have hc : ¬ (c = 'e' ∨ c = 'E') := by simp_all
          simp [readExponent, hc]
  | [e] =>
      by_cases he : e = 'e' ∨ e = 'E'
      · cases rest with
        | nil => simp [readExponent]
        | cons c rest =>
            obtain ⟨hdigit, hother⟩ := hrest c rfl
            have hsign : ¬ (c = '+' ∨ c = '-') := by simp_all
            simp [readExponent, he, hsign, readExponentDigits, hdigit]
      · simp [readExponent, he]
  | e :: sign :: cs =>
      by_cases he : e = 'e' ∨ e = 'E'
      · by_cases hsign : sign = '+' ∨ sign = '-'
        · have hdigits := readExponentDigits_append hrest [e, sign] cs (e :: sign :: cs)
          simpa [readExponent, he, hsign] using hdigits
        · have hdigits := readExponentDigits_append hrest [e] (sign :: cs) (e :: sign :: cs)
          simpa [readExponent, he, hsign] using hdigits
      · simp [readExponent, he]

theorem readWhole_append (cs : List Char) :
    readWhole (cs ++ rest) = ((readWhole cs).1, (readWhole cs).2 ++ rest) := by
  unfold readWhole
  rw [hrest.expect (.inl (by decide))]
  obtain ⟨htake, hdrop⟩ := hrest.digits cs
  cases Json.expect '0' cs with
  | none => simp only [Option.map_none, htake, hdrop]
  | some cs' => rfl

/-- A number is read alike whatever delimiter comes behind it. -/
theorem readUnsigned_append (negative : Bool) (cs : List Char) :
    readUnsigned negative (cs ++ rest) =
      (readUnsigned negative cs).map fun read => (read.1, read.2 ++ rest) := by
  unfold readUnsigned
  simp only [readWhole_append hrest, readFraction_append hrest, readExponent_append hrest]
  split
  · rfl
  · split
    · cases intOf negative (readWhole cs).1 <;> rfl
    · rfl

theorem readNumber_append (cs : List Char) :
    readNumber (cs ++ rest) = (readNumber cs).map fun read => (read.1, read.2 ++ rest) := by
  unfold readNumber
  rw [hrest.expect (by simp)]
  cases Json.expect '-' cs with
  | none => exact readUnsigned_append hrest false cs
  | some cs' => exact readUnsigned_append hrest true cs'

end Delimited

theorem head_toDigits {n : Nat} (hn : n ≠ 0) : ∀ c ∈ (Nat.toDigits 10 n).head?, c ≠ '0' := by
  induction n using Nat.strongRecOn with
  | ind n ih =>
      rw [Nat.toDigits_eq_if (by decide)]
      split
      · rename_i hlt
        rintro _ ⟨⟩
        have hall : ∀ m : Fin 10, m.val ≠ 0 → Nat.digitChar m ≠ '0' := by decide
        exact hall ⟨n, hlt⟩ hn
      · rename_i hle
        intro c hc
        have hdiv : n / 10 ≠ 0 := by omega
        apply ih (n / 10) (by omega) hdiv c
        rwa [List.head?_append_of_ne_nil _ Nat.toDigits_ne_nil] at hc

/-- The digits of a number are read as its whole part. -/
theorem readWhole_toDigits (n : Nat) : readWhole (Nat.toDigits 10 n) = (Nat.toDigits 10 n, []) := by
  rcases Nat.eq_zero_or_pos n with rfl | hpos
  · rfl
  · have hall : ∀ c ∈ Nat.toDigits 10 n, c.isDigit = true :=
      fun c hc => Nat.isDigit_of_mem_toDigits (by decide) (by decide) hc
    have hexpect : Json.expect '0' (Nat.toDigits 10 n) = none := by
      cases hdigits : Nat.toDigits 10 n with
      | nil => rfl
      | cons c cs =>
          refine expect_of_ne (head_toDigits (Nat.ne_of_gt hpos) c ?_) cs
          rw [hdigits]
          rfl
    rw [readWhole, hexpect]
    dsimp only
    rw [List.takeWhile_eq_self_iff.mpr hall, List.dropWhile_eq_nil_iff.mpr hall]

theorem readUnsigned_toDigits {n : Nat} (hn : n < digitLimit) (negative : Bool) :
    readUnsigned negative (Nat.toDigits 10 n) =
      .ok (.int (if negative then -(n : Int) else n), []) := by
  have hlength : (Nat.toDigits 10 n).length ≤ 4300 :=
    (Nat.length_toDigits_le_iff (by decide) (by decide)).mpr hn
  have hempty : (Nat.toDigits 10 n).isEmpty = false :=
    List.isEmpty_eq_false_iff.mpr Nat.toDigits_ne_nil
  unfold readUnsigned
  simp only [readWhole_toDigits, readFraction, Json.expect, readExponent, hempty, List.isEmpty_nil,
    Bool.and_self, if_true, intOf, if_neg (Nat.not_lt.mpr hlength), Nat.ofDigitChars_ten_toDigits]
  rfl

/-- The text of an integer that `int` accepts is read back. -/
theorem readNumber_int {n : Int} (hn : n.natAbs < digitLimit) :
    readNumber (toString n).toList = .ok (.int n, []) := by
  rw [Int.toString_eq_repr, Int.repr_eq_if]
  by_cases hpos : 0 ≤ n
  · have hexpect : Json.expect '-' (Nat.toDigits 10 n.toNat) = none := by
      cases hdigits : Nat.toDigits 10 n.toNat with
      | nil => rfl
      | cons c cs =>
          have hdigit : c.isDigit = true :=
            Nat.isDigit_of_mem_toDigits (b := 10) (n := n.toNat) (by decide) (by decide)
              (by rw [hdigits]; exact List.mem_cons_self)
          refine expect_of_ne ?_ cs
          rintro rfl
          exact absurd hdigit (by decide)
    rw [if_pos hpos, Nat.toList_repr, readNumber, hexpect]
    dsimp only
    rw [readUnsigned_toDigits (by omega), if_neg Bool.false_ne_true, Int.toNat_of_nonneg hpos]
  · rw [if_neg hpos, String.toList_append, Nat.toList_repr]
    change readUnsigned true (Nat.toDigits 10 (-n).toNat) = _
    rw [readUnsigned_toDigits (by omega), if_pos rfl, Int.toNat_of_nonneg (by omega),
      Int.neg_neg]

/-- The text of a finite float: a number that is read as a float. -/
def IsFloat (text : String) : Prop := readNumber text.toList = .ok (.float text, [])

/-- The first character of a number, and the second after a sign. -/
def StartsNumber (cs : List Char) : Prop :=
  ∃ c rest, c.isDigit = true ∧ (cs = c :: rest ∨ cs = '-' :: c :: rest)

theorem startsNumber_of_readWhole {cs : List Char} (hwhole : (readWhole cs).1.isEmpty = false) :
    ∃ c rest, c.isDigit = true ∧ cs = c :: rest := by
  cases cs with
  | nil => cases hwhole
  | cons c cs =>
      refine ⟨c, cs, ?_, rfl⟩
      by_cases hzero : c = '0'
      · rw [hzero]
        rfl
      · rw [readWhole, expect_of_ne hzero] at hwhole
        cases hdigit : c.isDigit with
        | true => rfl
        | false =>
            rw [List.takeWhile_cons_of_neg (by simp [hdigit])] at hwhole
            cases hwhole

theorem startsNumber_of_readUnsigned {negative : Bool} {cs : List Char}
    {read : Value × List Char} (hread : readUnsigned negative cs = .ok read) :
    ∃ c rest, c.isDigit = true ∧ cs = c :: rest := by
  apply startsNumber_of_readWhole
  unfold readUnsigned at hread
  dsimp only at hread
  split at hread
  · cases hread
  · rename_i hempty
    exact Bool.eq_false_of_not_eq_true hempty

theorem startsNumber_of_readNumber {cs : List Char} {read : Value × List Char}
    (hread : readNumber cs = .ok read) : StartsNumber cs := by
  unfold readNumber at hread
  cases cs with
  | nil =>
      obtain ⟨c, rest, -, hcs⟩ := startsNumber_of_readUnsigned hread
      cases hcs
  | cons d cs =>
      by_cases hsign : d = '-'
      · rw [hsign, expect_self] at hread
        obtain ⟨c, rest, hdigit, rfl⟩ := startsNumber_of_readUnsigned hread
        exact ⟨c, rest, hdigit, .inr (by rw [hsign])⟩
      · rw [expect_of_ne hsign] at hread
        obtain ⟨c, rest, hdigit, hcs⟩ := startsNumber_of_readUnsigned hread
        exact ⟨c, rest, hdigit, .inl hcs⟩

/-- No number begins like a named value. -/
theorem readLiteral_number {cs : List Char} (hstarts : StartsNumber cs) (rest : List Char) :
    readLiteral (cs ++ rest) literals = none := by
  have hne : ∀ {c d : Char}, c.isDigit = true → d.isDigit = false → (d == c) = false := by
    intro c d hc hd
    apply beq_eq_false_iff_ne.mpr
    rintro rfl
    rw [hc] at hd
    cases hd
  obtain ⟨c, cs, hdigit, rfl | rfl⟩ := hstarts
  · simp [readLiteral, literals, List.isPrefixOf, hne hdigit]
  · simp [readLiteral, literals, List.isPrefixOf, hne hdigit]

/-- A number is read back in front of every delimiter. -/
theorem readScalar_number {cs rest : List Char} {value : Value} (hrest : Delimited rest)
    (hread : readNumber cs = .ok (value, [])) : readScalar (cs ++ rest) = .ok (value, rest) := by
  rw [readScalar, readLiteral_number (startsNumber_of_readNumber hread), readNumber_append hrest,
    hread]
  rfl

/-! ### Values -/

theorem lt_digitLimit {n : Nat} (hn : n < 10) : n < digitLimit :=
  hn.trans_le (Nat.le_self_pow (Nat.succ_ne_zero 4299) 10)

mutual

/-- A value that `json` writes and reads back: integers of at most 4300 digits,
finite floats, and no key twice in a dict. -/
def Faithful : Value → Prop
  | .none | .bool _ | .str _ => True
  | .int n => n.natAbs < digitLimit
  | .float text => IsFloat text
  | .list items => FaithfulList items
  | .dict items => (items.map (·.1)).Nodup ∧ FaithfulItems items
  | .datetime _ | .object _ => False

def FaithfulList : List Value → Prop
  | [] => True
  | value :: rest => Faithful value ∧ FaithfulList rest

def FaithfulItems : Dict → Prop
  | [] => True
  | (_, value) :: rest => Faithful value ∧ FaithfulItems rest

end

theorem skipSpace_append {pad : List Char} (hpad : ∀ c ∈ pad, isWhitespace c = true)
    (cs : List Char) : skipSpace (pad ++ cs) = skipSpace cs := by
  unfold skipSpace
  induction pad with
  | nil => rfl
  | cons c pad ih =>
      rw [List.forall_mem_cons] at hpad
      rw [List.cons_append, List.dropWhile_cons_of_pos hpad.1, ih hpad.2]

theorem skipSpace_cons {c : Char} (hc : isWhitespace c = false) (cs : List Char) :
    skipSpace (c :: cs) = c :: cs := by
  rw [skipSpace, List.dropWhile_cons_of_neg (by simp [hc])]

namespace Layout

variable (layout : Layout) (level : Nat)

theorem newline_space : ∀ c ∈ layout.newline level, isWhitespace c = true := by
  cases layout with
  | oneLine => simp [newline]
  | indented width =>
      simp only [newline, List.forall_mem_cons, List.mem_replicate]
      refine ⟨by decide, ?_⟩
      rintro c ⟨-, rfl⟩
      decide

theorem comma_eq : ∃ pad, layout.comma level = ',' :: pad ∧ ∀ c ∈ pad, isWhitespace c = true := by
  cases layout with
  | oneLine => exact ⟨[' '], rfl, by simp; decide⟩
  | indented width => exact ⟨_, rfl, newline_space (.indented width) level⟩

/-- A closing bracket on its line delimits what stands before it. -/
theorem delimited_newline {c : Char} (hdigit : c.isDigit = false)
    (hother : c ∉ ['.', 'e', 'E', '+', '-']) (rest : List Char) :
    Delimited (layout.newline level ++ c :: rest) := by
  cases layout with
  | oneLine => exact delimited_cons hdigit hother
  | indented width => exact delimited_cons (by decide) (by decide)

end Layout

/-- A character with which a value may begin. -/
def Opens (cs : List Char) : Prop :=
  ∃ c rest, cs = c :: rest ∧ isWhitespace c = false ∧ c ≠ ']' ∧ c ≠ '\x7d' ∧
    c ≠ Char.ofNat 65279

theorem Opens.append {cs : List Char} (hopens : Opens cs) (rest : List Char) :
    Opens (cs ++ rest) := by
  obtain ⟨c, cs, rfl, hc⟩ := hopens
  exact ⟨c, cs ++ rest, rfl, hc⟩

theorem Opens.skipSpace {cs : List Char} (hopens : Opens cs) : Json.skipSpace cs = cs := by
  obtain ⟨c, cs, rfl, hspace, -⟩ := hopens
  exact skipSpace_cons hspace cs

theorem opens_of_startsNumber {cs : List Char} (hstarts : StartsNumber cs) : Opens cs := by
  obtain ⟨c, cs, hdigit, rfl | rfl⟩ := hstarts
  · have hne : ∀ {d : Char}, d.isDigit = false → c ≠ d := by
      rintro d hd rfl
      rw [hdigit] at hd
      cases hd
    refine ⟨c, cs, rfl, ?_, hne (by decide), hne (by decide), hne (by decide)⟩
    simp [isWhitespace, hne (d := ' ') (by decide), hne (d := '\t') (by decide),
      hne (d := '\n') (by decide), hne (d := '\r') (by decide)]
  · exact ⟨'-', c :: cs, rfl, by decide, by decide, by decide, by decide⟩

theorem render_opens (layout : Layout) (level : Nat) {value : Value} (hvalue : Faithful value) :
    Opens (render layout level value) := by
  have hopens : ∀ {c : Char} {cs : List Char}, isWhitespace c = false → c ≠ ']' → c ≠ '\x7d' →
      c ≠ Char.ofNat 65279 → Opens (c :: cs) :=
    fun hspace hclose hbrace hmark => ⟨_, _, rfl, hspace, hclose, hbrace, hmark⟩
  match value with
  | .none => exact hopens (by decide) (by decide) (by decide) (by decide)
  | .bool true => exact hopens (by decide) (by decide) (by decide) (by decide)
  | .bool false => exact hopens (by decide) (by decide) (by decide) (by decide)
  | .int n =>
      rw [render]
      exact opens_of_startsNumber (startsNumber_of_readNumber (readNumber_int hvalue))
  | .float text =>
      rw [render]
      exact opens_of_startsNumber (startsNumber_of_readNumber hvalue)
  | .str s => exact hopens (by decide) (by decide) (by decide) (by decide)
  | .list [] => exact hopens (by decide) (by decide) (by decide) (by decide)
  | .list (_ :: _) =>
      rw [render]
      exact hopens (by decide) (by decide) (by decide) (by decide)
  | .dict [] => exact hopens (by decide) (by decide) (by decide) (by decide)
  | .dict ((_, _) :: _) =>
      rw [render]
      exact hopens (by decide) (by decide) (by decide) (by decide)

theorem readValue_scalar {fuel : Nat} {cs : List Char} (hcs : StartsNumber cs) :
    readValue (fuel + 1) cs = readScalar cs := by
  obtain ⟨c, rest, hdigit, rfl | rfl⟩ := hcs
  · have hne : ∀ {d : Char}, d.isDigit = false → c ≠ d := by
      rintro d hd rfl
      rw [hdigit] at hd
      cases hd
    rw [readValue, if_neg (hne (by decide)), if_neg (hne (by decide)), if_neg (hne (by decide))]
  · rfl

theorem StartsNumber.append {cs : List Char} (hstarts : StartsNumber cs) (rest : List Char) :
    StartsNumber (cs ++ rest) := by
  obtain ⟨c, cs, hdigit, rfl | rfl⟩ := hstarts
  · exact ⟨c, cs ++ rest, hdigit, .inl rfl⟩
  · exact ⟨c, cs ++ rest, hdigit, .inr rfl⟩

theorem Opens.expect {cs : List Char} (hopens : Opens cs) :
    Json.expect ']' cs = none ∧ Json.expect '\x7d' cs = none := by
  obtain ⟨c, cs, rfl, -, hclose, hbrace, -⟩ := hopens
  exact ⟨expect_of_ne hclose cs, expect_of_ne hbrace cs⟩

theorem Opens.length_pos {cs : List Char} (hopens : Opens cs) : 0 < cs.length := by
  obtain ⟨c, cs, rfl, -⟩ := hopens
  exact Nat.succ_pos _

theorem readKey_quoted (key : String) {cs : List Char} (hopens : Opens cs) :
    readKey (quoted key ++ (": ".toList ++ cs)) = .ok (key, cs) := by
  unfold quoted readKey
  rw [List.cons_append, List.cons_append, expect_self]
  dsimp only
  rw [List.append_assoc, List.singleton_append, readString_of_quoted]
  dsimp only
  rw [show ": ".toList ++ cs = ':' :: ' ' :: cs from rfl, skipSpace_cons (by decide), expect_self]
  dsimp only
  rw [String.ofList_toList, show ' ' :: cs = [' '] ++ cs from rfl,
    skipSpace_append (by simp; decide), hopens.skipSpace]

theorem insert_new {key : String} {value : Value} {items : Dict}
    (hkey : key ∉ items.map (·.1)) : Dict.insert key value items = items ++ [(key, value)] := by
  induction items with
  | nil => rfl
  | cons item rest ih =>
      obtain ⟨k, v⟩ := item
      rw [List.map_cons, List.mem_cons, not_or] at hkey
      rw [Dict.insert, if_neg (Ne.symm hkey.1), ih hkey.2]
      rfl

theorem faithfulList_iff {items : List Value} :
    FaithfulList items ↔ ∀ value ∈ items, Faithful value := by
  induction items with
  | nil => simp [FaithfulList]
  | cons value rest ih => rw [FaithfulList, ih, List.forall_mem_cons]

theorem faithfulItems_iff {items : Dict} :
    FaithfulItems items ↔ ∀ item ∈ items, Faithful item.2 := by
  induction items with
  | nil => simp [FaithfulItems]
  | cons item rest ih => rw [FaithfulItems, ih, List.forall_mem_cons]

/-- The value is read off the front of its text, whatever delimiter follows. -/
def ReadBack (layout : Layout) (value : Value) : Prop :=
  ∀ (level fuel : Nat) (rest : List Char), Delimited rest →
    2 * (render layout level value).length ≤ fuel →
      readValue fuel (render layout level value ++ rest) = .ok (value, rest)

theorem readBack_scalar (layout : Layout) {value : Value} (hvalue : Faithful value)
    (hlist : ∀ items, value ≠ .list items) (hdict : ∀ items, value ≠ .dict items) :
    ReadBack layout value := by
  intro level fuel rest hrest hfuel
  have hpos := (render_opens layout level hvalue).length_pos
  obtain ⟨fuel, rfl⟩ : ∃ n, fuel = n + 1 := ⟨fuel - 1, by omega⟩
  cases value with
  | none =>
      rw [render]
      rfl
  | bool b =>
      rw [render]
      cases b <;> rfl
  | int n =>
      have hread : readNumber (toString n).toList = .ok (.int n, []) := readNumber_int hvalue
      rw [render, readValue_scalar ((startsNumber_of_readNumber hread).append rest)]
      exact readScalar_number hrest hread
  | float text =>
      rw [render, readValue_scalar ((startsNumber_of_readNumber hvalue).append rest)]
      exact readScalar_number hrest hvalue
  | str s =>
      have hread := readString_of_quoted s rest
      rw [render, quoted, List.cons_append, List.cons_append, readValue, if_pos rfl,
        List.append_assoc, List.singleton_append, hread]
      exact congrArg (fun s => Except.ok (Value.str s, rest)) String.ofList_toList
  | list items => exact absurd rfl (hlist items)
  | dict items => exact absurd rfl (hdict items)
  | datetime t => exact hvalue.elim
  | object typeName => exact hvalue.elim

/-- After an item comes the closing bracket, on its line. -/
theorem skipSpace_close (layout : Layout) (level : Nat) {c : Char} (hc : isWhitespace c = false)
    (rest : List Char) : skipSpace (layout.newline level ++ c :: rest) = c :: rest := by
  rw [skipSpace_append (layout.newline_space level), skipSpace_cons hc]

/-- The elements of an array after those that are read. -/
theorem readElements_render {layout : Layout} {level : Nat} {items : List Value} {value : Value}
    (hread : ∀ v ∈ value :: items, ReadBack layout v)
    (hfaithful : ∀ v ∈ value :: items, Faithful v) {fuel : Nat} (done : List Value)
    (rest : List Char) (hfuel : 2 * ((render layout (level + 1) value).length +
      (renderRest layout (level + 1) items).length) + 1 ≤ fuel) :
    readElements fuel done (render layout (level + 1) value ++
      (renderRest layout (level + 1) items ++ (layout.newline level ++ ']' :: rest))) =
        .ok (.list (done ++ value :: items), rest) := by
  induction items generalizing value fuel done with
  | nil =>
      obtain ⟨fuel, rfl⟩ : ∃ n, fuel = n + 1 := ⟨fuel - 1, by omega⟩
      have hvalue := hread value List.mem_cons_self (level + 1) fuel
        (layout.newline level ++ ']' :: rest)
        (layout.delimited_newline level (by decide) (by decide) rest) (by omega)
      rw [renderRest, List.nil_append, readElements, hvalue]
      dsimp only
      rw [skipSpace_close layout level (by decide), expect_self]
  | cons next items ih =>
      obtain ⟨fuel, rfl⟩ : ∃ n, fuel = n + 1 := ⟨fuel - 1, by omega⟩
      obtain ⟨pad, hcomma, hpad⟩ := layout.comma_eq (level + 1)
      have hnext : Faithful next := hfaithful next (by simp)
      rw [List.forall_mem_cons] at hread hfaithful
      simp only [renderRest, hcomma, List.cons_append, List.append_assoc, List.length_cons,
        List.length_append] at hfuel ⊢
      let following := render layout (level + 1) next ++
        (renderRest layout (level + 1) items ++ (layout.newline level ++ ']' :: rest))
      have hvalue := hread.1 (level + 1) fuel (',' :: (pad ++ following))
        (delimited_cons (by decide) (by decide)) (by omega)
      rw [readElements, hvalue]
      dsimp only
      rw [skipSpace_cons (by decide), expect_of_ne (by decide), expect_self]
      dsimp only
      rw [skipSpace_append hpad,
        ((render_opens layout (level + 1) hnext).append _).skipSpace,
        ih hread.2 hfaithful.2 _ (by omega)]
      simp

/-- One item of an object, with the closing bracket or the comma behind it. -/
theorem readMembers_item {layout : Layout} {level fuel : Nat} {key : String} {value : Value}
    (hread : ReadBack layout value) (hfaithful : Faithful value) {done : Dict}
    (hnew : key ∉ done.map (·.1)) {rest : List Char} (hrest : Delimited rest)
    (hfuel : 2 * (render layout level value).length ≤ fuel) (tail : List Char) :
    (skipSpace rest = '\x7d' :: tail → readMembers (fuel + 1) done
        (quoted key ++ (": ".toList ++ (render layout level value ++ rest))) =
          .ok (.dict (done ++ [(key, value)]), tail)) ∧
      (skipSpace rest = ',' :: tail → readMembers (fuel + 1) done
        (quoted key ++ (": ".toList ++ (render layout level value ++ rest))) =
          readMembers fuel (done ++ [(key, value)]) (skipSpace tail)) := by
  have hopens := (render_opens layout level hfaithful).append rest
  rw [readMembers, readKey_quoted key hopens]
  dsimp only
  rw [hread level fuel rest hrest hfuel]
  dsimp only
  rw [insert_new hnew]
  constructor
  · intro hclose
    rw [hclose, expect_self]
  · intro hnext
    rw [hnext, expect_of_ne (by decide), expect_self]

/-- The items of an object after those that are read, which have other keys. -/
theorem readMembers_render {layout : Layout} {level : Nat} {items : Dict} {key : String}
    {value : Value} (hread : ∀ item ∈ (key, value) :: items, ReadBack layout item.2)
    (hfaithful : ∀ item ∈ (key, value) :: items, Faithful item.2) {fuel : Nat} (done : Dict)
    (hkeys : ((done ++ (key, value) :: items).map (·.1)).Nodup) (rest : List Char)
    (hfuel : 2 * ((render layout (level + 1) value).length +
      (renderItems layout (level + 1) items).length) + 1 ≤ fuel) :
    readMembers fuel done (quoted key ++ (": ".toList ++ (render layout (level + 1) value ++
      (renderItems layout (level + 1) items ++ (layout.newline level ++ '\x7d' :: rest))))) =
        .ok (.dict (done ++ (key, value) :: items), rest) := by
  induction items generalizing key value fuel done with
  | nil =>
      obtain ⟨fuel, rfl⟩ : ∃ n, fuel = n + 1 := ⟨fuel - 1, by omega⟩
      have hvalue : ReadBack layout value := hread _ List.mem_cons_self
      have hfaithful : Faithful value := hfaithful _ List.mem_cons_self
      have hnew : key ∉ done.map (·.1) := by
        rw [List.map_append, List.nodup_append'] at hkeys
        exact fun hmem => hkeys.2.2 hmem (by simp)
      have hclose := layout.delimited_newline level (c := '\x7d') (by decide) (by decide) rest
      rw [renderItems, List.nil_append]
      exact (readMembers_item hvalue hfaithful hnew hclose (by omega) rest).1
        (skipSpace_close layout level (by decide) rest)
  | cons next items ih =>
      obtain ⟨fuel, rfl⟩ : ∃ n, fuel = n + 1 := ⟨fuel - 1, by omega⟩
      obtain ⟨nextKey, nextValue⟩ := next
      obtain ⟨pad, hcomma, hpad⟩ := layout.comma_eq (level + 1)
      have hvalue : ReadBack layout value := hread _ List.mem_cons_self
      rw [List.forall_mem_cons] at hread hfaithful
      have hnew : key ∉ done.map (·.1) := by
        rw [List.map_append, List.nodup_append'] at hkeys
        exact fun hmem => hkeys.2.2 hmem (by simp)
      have hkeys' :
          ((done ++ [(key, value)] ++ (nextKey, nextValue) :: items).map (·.1)).Nodup := by
        simpa using hkeys
      simp only [renderItems, hcomma, List.cons_append, List.append_assoc, List.length_cons,
        List.length_append] at hfuel ⊢
      have hopens : Opens (quoted nextKey) :=
        ⟨'"', _, rfl, by decide, by decide, by decide, by decide⟩
      let following := quoted nextKey ++ (": ".toList ++ (render layout (level + 1) nextValue ++
        (renderItems layout (level + 1) items ++ (layout.newline level ++ '\x7d' :: rest))))
      have hcomma' : Delimited (',' :: (pad ++ following)) :=
        delimited_cons (by decide) (by decide)
      have hshort : 2 * (render layout (level + 1) value).length ≤ fuel := by omega
      have hitem := readMembers_item hvalue hfaithful.1 hnew hcomma' hshort (pad ++ following)
      rw [hitem.2 (skipSpace_cons (by decide) _), skipSpace_append hpad,
        (hopens.append _).skipSpace, ih hread.2 hfaithful.2 _ hkeys' (by omega), List.append_assoc]
      rfl

/-- What holds of a list or a dict whenever it holds of what is in it, and of
every other value, holds of all values. -/
theorem value_induction {P : Value → Prop}
    (hlist : ∀ items, (∀ value ∈ items, P value) → P (.list items))
    (hdict : ∀ items : Dict, (∀ item ∈ items, P item.2) → P (.dict items))
    (hscalar : ∀ value, (∀ items, value ≠ .list items) → (∀ items, value ≠ .dict items) →
      P value) (value : Value) : P value := by
  refine @Value.rec P (fun items => ∀ value ∈ items, P value)
    (fun items => ∀ item ∈ items, P item.2) (fun item => P item.2)
    ?none ?bool ?int ?float ?str hlist hdict ?datetime ?object ?nil ?cons ?nilItem ?consItem
    (fun _ _ hvalue => hvalue) value
  case nil | nilItem => simp
  case cons | consItem =>
    intro head tail hhead htail
    exact List.forall_mem_cons.mpr ⟨hhead, htail⟩
  all_goals
    intros
    exact hscalar _ (by rintro items ⟨⟩) (by rintro items ⟨⟩)

/-- Whatever JSON can carry is read off the front of its text. -/
theorem readBack (layout : Layout) (value : Value) (hvalue : Faithful value) :
    ReadBack layout value := by
  induction value using value_induction with
  | hscalar value hlist hdict => exact readBack_scalar layout hvalue hlist hdict
  | hlist items ih =>
      rw [Faithful, faithfulList_iff] at hvalue
      intro level fuel rest hrest hfuel
      cases items with
      | nil =>
          rw [render] at hfuel ⊢
          have hpos : 0 < fuel := Nat.lt_of_lt_of_le (by decide) hfuel
          obtain ⟨fuel, rfl⟩ := Nat.exists_eq_add_one.mpr hpos
          rfl
      | cons value items =>
          have hread : ∀ v ∈ value :: items, ReadBack layout v :=
            fun v hv => ih v hv (hvalue v hv)
          simp only [render, List.length_cons, List.length_append, List.length_nil] at hfuel
          obtain ⟨fuel, rfl⟩ : ∃ n, fuel = n + 1 := ⟨fuel - 1, by omega⟩
          have hopens := (render_opens layout (level + 1) (hvalue value List.mem_cons_self)).append
            (renderRest layout (level + 1) items ++ (layout.newline level ++ ']' :: rest))
          simp only [render, List.cons_append, List.append_assoc, List.nil_append]
          rw [readValue, if_neg (by decide), if_pos rfl]
          dsimp only
          rw [skipSpace_append (layout.newline_space (level + 1)), hopens.skipSpace,
            hopens.expect.1]
          exact readElements_render hread hvalue [] rest (by omega)
  | hdict items ih =>
      rw [Faithful, faithfulItems_iff] at hvalue
      obtain ⟨hkeys, hvalues⟩ := hvalue
      intro level fuel rest hrest hfuel
      cases items with
      | nil =>
          rw [render] at hfuel ⊢
          have hpos : 0 < fuel := Nat.lt_of_lt_of_le (by decide) hfuel
          obtain ⟨fuel, rfl⟩ := Nat.exists_eq_add_one.mpr hpos
          rfl
      | cons item items =>
          obtain ⟨key, value⟩ := item
          have hread : ∀ item ∈ (key, value) :: items, ReadBack layout item.2 :=
            fun item hitem => ih item hitem (hvalues item hitem)
          simp only [render, List.length_cons, List.length_append, List.length_nil] at hfuel
          obtain ⟨fuel, rfl⟩ : ∃ n, fuel = n + 1 := ⟨fuel - 1, by omega⟩
          have hopens : Opens (quoted key) :=
            ⟨'"', _, rfl, by decide, by decide, by decide, by decide⟩
          simp only [render, List.cons_append, List.append_assoc, List.nil_append]
          rw [readValue, if_neg (by decide), if_neg (by decide), if_pos rfl]
          dsimp only
          rw [skipSpace_append (layout.newline_space (level + 1)), (hopens.append _).skipSpace,
            (hopens.append _).expect.2]
          exact readMembers_render hread hvalues [] hkeys rest (by omega)

theorem delimited_space {cs : List Char} (hspace : ∀ c ∈ cs, isWhitespace c = true) :
    Delimited cs := by
  cases cs with
  | nil => exact delimited_nil
  | cons c cs =>
      have hc := hspace c List.mem_cons_self
      simp only [isWhitespace, Bool.or_eq_true, beq_iff_eq] at hc
      rcases hc with ((rfl | rfl) | rfl) | rfl <;> exact delimited_cons (by decide) (by decide)

/-- A written text is read back, also with white space behind it. -/
theorem loads_render (layout : Layout) {value : Value} (hvalue : Faithful value)
    {trailing : List Char} (hspace : ∀ c ∈ trailing, isWhitespace c = true) :
    loads (String.ofList (render layout 0 value ++ trailing)) = .ok value := by
  have hopens := (render_opens layout 0 hvalue).append trailing
  have hread := readBack layout value hvalue 0
    (2 * (render layout 0 value ++ trailing).length) trailing (delimited_space hspace)
    (by rw [List.length_append]; omega)
  have hmark : ¬ (render layout 0 value ++ trailing).head? = some (Char.ofNat 65279) := by
    obtain ⟨c, cs, hcs, -, -, -, hmark⟩ := hopens
    rw [hcs]
    exact fun h => hmark (Option.some.inj h)
  unfold loads
  dsimp only
  rw [String.toList_ofList, if_neg hmark, hopens.skipSpace, hread]
  dsimp only
  rw [← List.append_nil trailing, skipSpace_append hspace]
  rfl

/-- What can be read back can be written. -/
theorem refusal_eq_none {value : Value} (hvalue : Faithful value) : refusal value = none := by
  induction value using value_induction with
  | hscalar value hlist hdict =>
      cases value with
      | int n =>
          have hsmall : n.natAbs < digitLimit := hvalue
          rw [refusal, if_neg (Nat.not_le.mpr hsmall)]
      | list items => exact absurd rfl (hlist items)
      | dict items => exact absurd rfl (hdict items)
      | datetime t => exact hvalue.elim
      | object typeName => exact hvalue.elim
      | _ => rfl
  | hlist items ih =>
      rw [Faithful, faithfulList_iff] at hvalue
      rw [refusal]
      induction items with
      | nil => rfl
      | cons value items ih' =>
          rw [List.forall_mem_cons] at ih hvalue
          rw [refusalList, ih.1 hvalue.1, ih' ih.2 hvalue.2]
          rfl
  | hdict items ih =>
      rw [Faithful, faithfulItems_iff] at hvalue
      obtain ⟨-, hvalues⟩ := hvalue
      rw [refusal]
      induction items with
      | nil => rfl
      | cons item items ih' =>
          rw [List.forall_mem_cons] at ih hvalues
          rw [refusalItems, ih.1 hvalues.1, ih' ih.2 hvalues.2]
          rfl

theorem sortedList_eq (items : List Value) : sortedList items = items.map sorted := by
  induction items with
  | nil => rfl
  | cons value rest ih => rw [sortedList, ih, List.map_cons]

theorem sortedItems_eq (items : Dict) :
    sortedItems items = items.map fun item => (item.1, sorted item.2) := by
  induction items with
  | nil => rfl
  | cons item rest ih => rw [sortedItems, ih, List.map_cons]

/-- Sorting the keys keeps a value readable. -/
theorem Faithful.sorted {value : Value} (hvalue : Faithful value) : Faithful (sorted value) := by
  induction value using value_induction with
  | hscalar value hlist hdict =>
      cases value with
      | list items => exact absurd rfl (hlist items)
      | dict items => exact absurd rfl (hdict items)
      | _ => exact hvalue
  | hlist items ih =>
      rw [Faithful, faithfulList_iff] at hvalue
      rw [Json.sorted, Faithful, faithfulList_iff, sortedList_eq, List.forall_mem_map]
      exact fun value hmem => ih value hmem (hvalue value hmem)
  | hdict items ih =>
      rw [Faithful, faithfulItems_iff] at hvalue
      obtain ⟨hkeys, hvalues⟩ := hvalue
      have hperm := List.perm_insertionSort (fun item item' : String × Value => item.1 ≤ item'.1)
        (sortedItems items)
      rw [Json.sorted, Faithful, faithfulItems_iff]
      constructor
      · rw [(hperm.map _).nodup_iff, sortedItems_eq, List.map_map]
        exact hkeys
      · intro item hitem
        rw [hperm.mem_iff, sortedItems_eq] at hitem
        obtain ⟨item', hmem, rfl⟩ := List.mem_map.mp hitem
        exact ih item' hmem (hvalues item' hmem)

/-- `json.loads(json.dumps(value))` gives the value back, with the keys of its
dicts sorted where `dumps` sorts them, also with white space behind the text. -/
theorem loads_dumps (layout : Layout) (sortKeys : Bool) {value : Value}
    (hvalue : Faithful value) :
    ∃ text, dumps layout sortKeys value = .ok text ∧
      ∀ trailing : String, (∀ c ∈ trailing.toList, isWhitespace c = true) →
        loads (text ++ trailing) = .ok (if sortKeys then sorted value else value) := by
  have hread : ∀ {value : Value}, Faithful value → ∀ trailing : String,
      (∀ c ∈ trailing.toList, isWhitespace c = true) →
        loads (String.ofList (render layout 0 value) ++ trailing) = .ok value := by
    intro value hvalue trailing hspace
    rw [← loads_render layout hvalue hspace, String.ofList_append, String.ofList_toList]
  unfold dumps
  rw [refusal_eq_none hvalue]
  cases sortKeys with
  | false => exact ⟨_, rfl, hread hvalue⟩
  | true => exact ⟨_, rfl, hread hvalue.sorted⟩

end Json

end Conductor
