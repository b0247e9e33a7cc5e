import ExerciseAudit.Proofs.Json.Magnitude
import ExerciseAudit.Proofs.Json.Reader

/-!
# Reading what is printed

What a value is printed as is one writing of it, at every level of indentation, and a reader gets
the value back (`Value.exists_printed`). A character stands for itself or is escaped in the one way
that the printer knows, a number is an integer of 64 bits, and brackets nest no deeper than a reader
follows them.
-/

namespace ExerciseAudit.Json

/-! ## Strings -/

/-- Escapes are printed with the lower case digits of the grammar. -/
theorem hexDigit_eq_char (n : Fin 16) : hexDigit n.val = (⟨n, false⟩ : HexDigit).char := by
  revert n
  decide

/-- A control character is escaped by its code, which has two digits at most. -/
theorem exists_unit_of_control {c : Char} (control : c.toNat < 0x20) : ∃ glyph : Glyph,
    glyph.text = ['\\', 'u', '0', '0', hexDigit (c.toNat / 16), hexDigit (c.toNat % 16)] ∧
      ∀ rest, Glyph.spelled? (glyph :: rest) = (Glyph.spelled? rest).map (c :: ·) := by
  let third : Fin 16 := ⟨c.toNat / 16, by omega⟩
  let fourth : Fin 16 := ⟨c.toNat % 16, by omega⟩
  have code : Glyph.code ⟨0, false⟩ ⟨0, false⟩ ⟨third, false⟩ ⟨fourth, false⟩ = c.toNat := by
    simp only [Glyph.code, third, fourth, Fin.val_zero]
    omega
  refine ⟨.unit ⟨0, false⟩ ⟨0, false⟩ ⟨third, false⟩ ⟨fourth, false⟩, ?_, fun rest => ?_⟩
  · rw [hexDigit_eq_char third, hexDigit_eq_char fourth]
    rfl
  · have noTrail : ¬ (0xDC00 ≤ c.toNat ∧ c.toNat < 0xE000) := by omega
    have noLead : ¬ (0xD800 ≤ c.toNat ∧ c.toNat < 0xDC00) := by omega
    rw [Glyph.spelled?.eq_def]
    simp only [code, noTrail, noLead, ↓reduceIte, Char.ofNat_toNat]

/-- A character stands in a printed string as one sign that spells it. -/
theorem exists_glyph (c : Char) : ∃ glyph : Glyph, glyph.text = escape c ∧
    ∀ rest, Glyph.spelled? (glyph :: rest) = (Glyph.spelled? rest).map (c :: ·) := by
  have short (escape : Escape) (rest : List Glyph) : Glyph.spelled? (.short escape :: rest) =
      (Glyph.spelled? rest).map (escape.meaning :: ·) := by
    rw [Glyph.spelled?]
  unfold escape
  split
  case isTrue same => exact ⟨.short .quote, rfl, same ▸ short .quote⟩
  split
  case isTrue same => exact ⟨.short .backslash, rfl, same ▸ short .backslash⟩
  split
  case isTrue same => exact ⟨.short .lineFeed, rfl, same ▸ short .lineFeed⟩
  split
  case isTrue same => exact ⟨.short .carriageReturn, rfl, same ▸ short .carriageReturn⟩
  split
  case isTrue same => exact ⟨.short .tab, rfl, same ▸ short .tab⟩
  split
  case isTrue code =>
    obtain rfl : c = '\x08' := Char.toNat_inj.mp code
    exact ⟨.short .backspace, rfl, short .backspace⟩
  split
  case isTrue code =>
    obtain rfl : c = '\x0c' := Char.toNat_inj.mp code
    exact ⟨.short .formFeed, rfl, short .formFeed⟩
  split
  case isTrue control => exact exists_unit_of_control control
  case isFalse visible =>
    exact ⟨.plain c ⟨not_lt.mp visible, ‹_›, ‹_›⟩, rfl, fun rest => by rw [Glyph.spelled?]⟩

/-- What is printed of a text is a row of glyphs that spell it. -/
theorem exists_glyphs (text : List Char) : ∃ glyphs : List Glyph,
    glyphs.flatMap Glyph.text = text.flatMap escape ∧ Glyph.spelled? glyphs = some text := by
  induction text with
  | nil => exact ⟨[], rfl, by rw [Glyph.spelled?]⟩
  | cons c rest ih =>
    obtain ⟨glyph, stands, spells⟩ := exists_glyph c
    obtain ⟨glyphs, later, spelled⟩ := ih
    refine ⟨glyph :: glyphs, ?_, by rw [spells, spelled, Option.map_some]⟩
    rw [List.flatMap_cons, List.flatMap_cons, stands, later]

/-- A printed string is one writing of its text. -/
theorem exists_quoted_eq_quote (text : String) : ∃ glyphs : List Glyph,
    '"' :: quoted glyphs = quote text ∧ string? glyphs = some text := by
  obtain ⟨glyphs, stands, spelled⟩ := exists_glyphs text.toList
  refine ⟨glyphs, ?_, ?_⟩
  · rw [quoted, quote, stands, List.cons_append]
  · rw [string?, spelled, Option.map_some, String.ofList_toList]

/-! ## Numbers -/

/-- The digits that print a natural number are worth the number. -/
theorem exists_whole (n : Nat) : ∃ whole : Whole,
    whole.all.map digitChar = Nat.toDigits 10 n ∧ natural whole.all = n := by
  -- the last digit is the remainder, and the digits before it print the quotient
  induction n using Nat.strongRecOn with
  | ind n ih =>
    have last (digit : Fin 10) : digit.val.digitChar = digitChar digit := by
      revert digit
      decide
    rw [Nat.toDigits_eq_if (by decide)]
    split
    case isTrue single =>
      have digit := last ⟨n, single⟩
      rcases n with _ | n
      · exact ⟨.zero, rfl, rfl⟩
      · refine ⟨.positive ⟨n, by omega⟩ [], ?_, by simp [Whole.all, natural]⟩
        rw [digit]
        rfl
    case isFalse long =>
      have digit := last ⟨n % 10, Nat.mod_lt n (by decide)⟩
      obtain ⟨whole, stands, worth⟩ := ih (n / 10) (by omega)
      cases whole with
      | zero =>
        have none : n / 10 = 0 := worth.symm
        omega
      | positive first rest =>
        refine ⟨.positive first (rest ++ [⟨n % 10, Nat.mod_lt n (by decide)⟩]), ?_, ?_⟩
        · rw [digit, ← stands]
          simp [Whole.all]
        · have more := natural_append (Whole.positive first rest).all
            [⟨n % 10, Nat.mod_lt n (by decide)⟩]
          simp only [Whole.all, natural, List.cons_append] at more worth ⊢
          rw [more, worth]
          simp
          omega

/-- Digits of a number within the bound are all gathered. -/
theorem gather_eq_natural {bound : Nat} {digits : List (Fin 10)} (fits : natural digits ≤ bound) :
    gather bound 0 (digits.map digitChar) = (natural digits, []) := by
  obtain ⟨used, left, split, gathered, full⟩ := exists_gather_eq bound 0 digits
  rw [Nat.zero_mul, Nat.zero_add] at gathered full
  cases left with
  | nil => rw [gathered, split, List.append_nil, List.map_nil]
  | cons digit left =>
    have beyond : bound < natural used * 10 + digit.val := full digit rfl
    have front : natural (used ++ [digit]) = natural used * 10 + digit.val := by
      rw [natural_append]
      simp [natural]
    have whole : natural digits =
        natural (used ++ [digit]) * 10 ^ left.length + natural left := by
      rw [split, ← natural_append, List.append_assoc, List.singleton_append]
    have scale : natural (used ++ [digit]) ≤ natural (used ++ [digit]) * 10 ^ left.length :=
      Nat.le_mul_of_pos_right _ (by positivity)
    omega

namespace Figure

variable {whole : Whole}

/-- A whole number within range is gathered to its last digit. -/
theorem significand_whole (fits : natural whole.all ≤ maxSignificand) :
    Numeral.significand ⟨whole.all.map digitChar, none, none⟩ =
      (natural whole.all, 0, true) := by
  simp only [Numeral.significand, gather_eq_natural fits, Option.getD_none, gather]
  rfl

/-- A whole number within range is taken in as an integer. -/
theorem number?_natural (fits : natural whole.all ≤ maxSignificand) :
    (Figure.mk false whole none none).number? = some (.integer (natural whole.all)) := by
  simp only [number?, numeral, Option.map_none, Numeral.value, significand_whole fits]
  rfl

/-- So is a negative one, unless it is zero, down to the least one. -/
theorem number?_negative (inhabited : natural whole.all ≠ 0)
    (fits : natural whole.all ≤ powerOfTwo 63) :
    (Figure.mk true whole none none).number? = some (.integer (-natural whole.all)) := by
  have short : natural whole.all ≤ maxSignificand := le_trans fits (by decide)
  simp only [number?, numeral, Option.map_none, Numeral.value, significand_whole short, ne_eq,
    inhabited, not_false_eq_true, fits, and_self, ↓reduceIte]
  rfl

theorem value_whole (negative : Bool) : (Figure.mk negative whole none none).value =
    if negative then -(natural whole.all : ℚ) else natural whole.all := by
  simp [value, magnitude, decimals]

end Figure

/-- An integer of 64 bits is printed as one writing of itself, and is read as an integer. -/
theorem exists_figure {n : Int} (fits : fitsWord 64 n = true) : ∃ figure : Figure,
    figure.text = (Number.integer n).write.toList ∧
      figure.number? = some (.integer n) ∧ figure.value = n := by
  simp only [fitsWord, decide_eq_true_eq] at fits
  obtain ⟨low, high⟩ := fits
  have printed : (Number.integer n).write = n.repr := rfl
  rw [printed, Int.repr_eq_if]
  by_cases sign : 0 ≤ n
  · obtain ⟨whole, stands, worth⟩ := exists_whole n.toNat
    have same : (natural whole.all : Int) = n := by omega
    have short : natural whole.all ≤ maxSignificand := by
      have bound : powerOfTwo 64 = maxSignificand + 1 := by decide
      omega
    refine ⟨⟨false, whole, none, none⟩, ?_, ?_, ?_⟩
    · rw [if_pos sign, Nat.toList_repr, ← stands]
      simp [Figure.text, Figure.unsigned, fractionText, exponentText]
    · rw [Figure.number?_natural short, same]
    · rw [Figure.value_whole, ← same]
      simp
  · obtain ⟨whole, stands, worth⟩ := exists_whole (-n).toNat
    have same : -(natural whole.all : Int) = n := by omega
    have short : natural whole.all ≤ powerOfTwo 63 := by
      change -(powerOfTwo 63 : Int) ≤ n at low
      omega
    refine ⟨⟨true, whole, none, none⟩, ?_, ?_, ?_⟩
    · rw [if_neg sign, String.toList_append, Nat.toList_repr, ← stands]
      simp [Figure.text, Figure.unsigned, fractionText, exponentText]
    · rw [Figure.number?_negative (by omega) short, same]
    · rw [Figure.value_whole, ← same]
      simp

/-! ## Lines -/

/-- The blanks that start a new line at a level of indentation. -/
def lineBlanks (level : Nat) : List Blank :=
  .lineFeed :: List.replicate (2 * level) .space

theorem spaces_nil : spaces [] = [] := rfl

/-- The blanks before a printed item are a line feed and the indentation of its level. -/
theorem spaces_lineBlanks (level : Nat) : spaces (lineBlanks level) = newLine level := by
  simp [spaces, lineBlanks, newLine, Blank.char]

section Rows

variable {α β γ : Type} {make : List Blank → α → List Blank → β}

/-- What stands between brackets that close at a level of indentation, each on a line of its own. -/
def rows (make : List Blank → α → List Blank → β) (level : Nat) : List α → List β
  | [] => []
  | [last] => [make (lineBlanks (level + 1)) last (lineBlanks level)]
  | item :: next :: rest => make (lineBlanks (level + 1)) item [] :: rows make level (next :: rest)

theorem exists_rows_eq_cons (make : List Blank → α → List Blank → β) (level : Nat) (first : α)
    (rest : List α) : ∃ row later, rows make level (first :: rest) = row :: later := by
  cases rest <;> exact ⟨_, _, rfl⟩

/-- Rows with commas between them, as they are printed: each item on a line of its own, and the
closing bracket a level up. -/
theorem separated_rows {text : β → List Char} {core : α → List Char} {first : α} {rest : List α}
    (stands : ∀ item ∈ first :: rest, ∀ before after,
      text (make before item after) = spaces before ++ (core item ++ spaces after))
    (level : Nat) :
    separated ((rows make level (first :: rest)).map text) =
      newLine (level + 1) ++ core first ++
        rest.flatMap (fun item => ',' :: newLine (level + 1) ++ core item) ++ newLine level := by
  induction rest generalizing first with
  | nil => simp [rows, separated, stands, spaces_lineBlanks]
  | cons next rest ih =>
    obtain ⟨here, later⟩ := List.forall_mem_cons.mp stands
    obtain ⟨row, others, split⟩ := exists_rows_eq_cons make level next rest
    have behind := ih later
    rw [split, List.map_cons] at behind
    calc separated ((rows make level (first :: next :: rest)).map text)
        = newLine (level + 1) ++ core first ++ ',' ::
            separated (text row :: others.map text) := by
          simp [rows, split, separated, here, spaces_lineBlanks, spaces_nil]
      _ = newLine (level + 1) ++ core first ++ (next :: rest).flatMap
            (fun item => ',' :: newLine (level + 1) ++ core item) ++ newLine level := by
          simp [behind]

/-- Rows are taken in as what their items are taken in as, whatever blanks stand around them. -/
theorem mapM_rows {read : β → Option γ} {view : α → γ} {items : List α}
    (reads : ∀ item ∈ items, ∀ before after, read (make before item after) = some (view item))
    (level : Nat) : (rows make level items).mapM read = some (items.map view) := by
  induction items using rows.induct with
  | case1 => rfl
  | case2 last => simp [rows, reads]
  | case3 item next rest ih =>
    obtain ⟨here, later⟩ := List.forall_mem_cons.mp reads
    rw [rows, mapM_cons_eq, here, ih later]
    rfl

end Rows

/-! ## Values -/

/-- A number, exactly. -/
def Number.value : Number → ℚ
  | integer n => n
  | float x => if x.negative then -x.magnitude.value else x.magnitude.value

namespace Value

theorem sizeOf_value_lt {member : String × Value} {members : List (String × Value)}
    (inside : member ∈ members) : sizeOf member.2 < sizeOf members := by
  have smaller := List.sizeOf_lt_of_mem inside
  obtain ⟨name, value⟩ := member
  simp only [Prod.mk.sizeOf_spec] at smaller ⊢
  omega

/-- The value in the sense of the grammar. -/
def datum : Value → Datum
  | null => .null
  | bool value => .bool value
  | number value => .number value.value
  | string text => .string text
  | array items => .array (items.map fun item => item.datum)
  | object members => .object (members.map fun member => (member.1, member.2.datum))
decreasing_by
  · have smaller := List.sizeOf_lt_of_mem ‹_›
    simp only [array.sizeOf_spec]
    omega
  · have smaller := sizeOf_value_lt ‹_›
    simp only [object.sizeOf_spec]
    omega

/-- Brackets nest at most `depth` deep, and every number is an integer of 64 bits. -/
def Integral : Nat → Value → Prop
  | _, number (.integer n) => fitsWord 64 n = true
  | _, number (.float _) => False
  | 0, array _ => False
  | depth + 1, array items => ∀ item ∈ items, item.Integral depth
  | 0, object _ => False
  | depth + 1, object members => ∀ member ∈ members, member.2.Integral depth
  | _, _ => True

/-- Items after the first are printed with a comma and a new line before each. -/
theorem printItems_eq (level : Nat) (items : List Value) : printItems level items =
    items.flatMap fun item => ',' :: newLine level ++ item.print level := by
  induction items with
  | nil => rw [printItems, List.flatMap_nil]
  | cons item rest ih => rw [printItems, ih, List.flatMap_cons]

theorem printMembers_eq (level : Nat) (members : List (String × Value)) :
    printMembers level members =
      members.flatMap fun member => ',' :: newLine level ++ printMember level member := by
  induction members with
  | nil => rw [printMembers, List.flatMap_nil]
  | cons member rest ih => rw [printMembers, ih, List.flatMap_cons]

instance : Inhabited Writing := ⟨.null⟩

/-- What is printed of a value is one writing of it. -/
def Printed (level depth : Nat) (value : Value) (writing : Writing) : Prop :=
  writing.text = value.print level ∧ writing.value? depth = some value ∧
    writing.datum? = some value.datum

variable {depth : Nat}

/-- An array is printed as a spelling of it if its items are. -/
theorem exists_printed_array {items : List Value} (level : Nat)
    (ih : ∀ item ∈ items, ∃ writing, Printed (level + 1) depth item writing) :
    ∃ writing, Printed level (depth + 1) (array items) writing := by
  choose! writing text read exact using ih
  let slot (before : List Blank) (item : Value) (after : List Blank) : Slot Writing :=
    ⟨before, writing item, after⟩
  have reads : (rows slot level items).mapM (fun slot => slot.value.value? depth) =
      some (items.map id) := by
    refine mapM_rows (fun item inside _ _ => ?_) level
    exact read item inside
  have writes : (rows slot level items).mapM (fun slot => slot.value.datum?) =
      some (items.map datum) := by
    refine mapM_rows (fun item inside _ _ => ?_) level
    exact exact item inside
  refine ⟨.array [] (rows slot level items), ?_, ?_, ?_⟩
  · rw [Writing.text_array]
    cases items with
    | nil => rw [print]; rfl
    | cons first rest =>
      have stands : ∀ item ∈ first :: rest, ∀ before after, (slot before item after).text =
          spaces before ++ (item.print (level + 1) ++ spaces after) :=
        fun item inside _ _ => by simp only [Slot.text, slot, text item inside]
      have lines := separated_rows stands level
      rw [lines, print, printItems_eq, spaces_nil]
      simp
  · rw [Writing.value?, reads, List.map_id, Option.map_some]
  · rw [Writing.datum?, writes, Option.map_some, datum]

theorem exists_printed_object {members : List (String × Value)} (level : Nat)
    (ih : ∀ member ∈ members, ∃ writing, Printed (level + 1) depth member.2 writing) :
    ∃ writing, Printed level (depth + 1) (object members) writing := by
  choose! writing text read exact using ih
  choose glyphs shown spelled using exists_quoted_eq_quote
  let field (before : List Blank) (member : String × Value) (after : List Blank) :
      Member Writing :=
    ⟨before, glyphs member.1, [], [.space], writing member, after⟩
  have reads : (rows field level members).mapM (fun field => (string? field.name).bind fun name =>
      (field.value.value? depth).map (name, ·)) = some (members.map id) := by
    refine mapM_rows (fun member inside _ _ => ?_) level
    simp only [field, spelled, read member inside]
    rfl
  have writes : (rows field level members).mapM (fun field => (string? field.name).bind fun name =>
      field.value.datum?.map (name, ·)) =
        some (members.map fun member => (member.1, member.2.datum)) := by
    refine mapM_rows (fun member inside _ _ => ?_) level
    simp only [field, spelled, exact member inside]
    rfl
  refine ⟨.object [] (rows field level members), ?_, ?_, ?_⟩
  · rw [Writing.text_object]
    cases members with
    | nil => rw [print]; rfl
    | cons first rest =>
      have stands : ∀ member ∈ first :: rest, ∀ before after, (field before member after).text =
          spaces before ++ (printMember (level + 1) member ++ spaces after) := by
        rintro ⟨name, value⟩ inside before after
        have key := shown name
        rw [printMember, ← key, ← text _ inside]
        simp [Member.text, field, spaces, Blank.char]
      have lines := separated_rows stands level
      rw [lines, print, printMembers_eq, spaces_nil]
      simp
  · rw [Writing.value?, reads, List.map_id, Option.map_some]
  · rw [Writing.datum?, writes, Option.map_some, datum]

/-- What is printed of a value is one writing of it, from which a reader gets the value back. -/
theorem exists_printed {value : Value} (whole : value.Integral depth) (level : Nat) :
    ∃ writing, Printed level depth value writing := by
  -- the parts of a value have one bracket less to spare, and stand one level further in
  induction depth using Nat.strong_induction_on generalizing value level with
  | _ depth ih =>
    cases value with
    | null => exact ⟨.null, by rw [Writing.text, print], by rw [Writing.value?],
        by rw [Writing.datum?, datum]⟩
    | bool flag =>
      refine ⟨.bool flag, ?_, by rw [Writing.value?], by rw [Writing.datum?, datum]⟩
      cases flag <;> rw [Writing.text, print]
    | string text =>
      obtain ⟨glyphs, shown, spelled⟩ := exists_quoted_eq_quote text
      refine ⟨.string glyphs, ?_, ?_, ?_⟩
      · rw [Writing.text, shown, print]
      · rw [Writing.value?, spelled, Option.map_some]
      · rw [Writing.datum?, spelled, Option.map_some, datum]
    | number number =>
      cases number with
      | float x =>
        rw [Integral] at whole
        exact whole.elim
      | integer n =>
        rw [Integral] at whole
        obtain ⟨figure, shown, read, exact⟩ := exists_figure whole
        refine ⟨.number figure, ?_, ?_, ?_⟩
        · rw [Writing.text, shown, print]
        · rw [Writing.value?, read, Option.map_some]
        · rw [Writing.datum?, exact, datum, Number.value]
    | array items =>
      cases depth with
      | zero => exact whole.elim
      | succ depth =>
        exact exists_printed_array level fun item inside =>
          ih depth (Nat.lt_succ_self _) (whole item inside) (level + 1)
    | object members =>
      cases depth with
      | zero => exact whole.elim
      | succ depth =>
        exact exists_printed_object level fun member inside =>
          ih depth (Nat.lt_succ_self _) (whole member inside) (level + 1)

end Value

/-! ## Reading back -/

/-- A writing that stands between blanks is read as the value that a reader makes of it. -/
theorem Value.parse_of_value? {writing : Writing} {value : Value} (before after : List Blank)
    (given : writing.value? maxDepth = some value) :
    Value.parse (String.ofList (spaces before ++ (writing.text ++ spaces after))) = .ok value := by
  have stops : Stops (spaces after) := by
    have ended : Stops [] := by simp [Stops]
    have spaced := stops_spaces after ended
    rwa [List.append_nil] at spaced
  have read := reads_readValue maxDepth writing before stops
  rw [given, Option.map_some] at read
  rw [Value.parse, String.toList_ofList, eq_ok_of_toOption read]
  simp only [bind, Except.bind, readEnd_spaces]
  rfl

end ExerciseAudit.Json
