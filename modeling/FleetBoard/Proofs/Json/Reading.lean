import FleetBoard.Json.Doc
import FleetBoard.Proofs.Text.Utf8
import Mathlib.Data.List.Induction

/-!
# Reading undoes writing

What `render` writes of an object whose values are texts and nulls, the reader of documents reads
back: the same fields in the same order, the texts code point for code point. A text is escaped
character by character, and each escape leads from inside a string to inside a string with the bytes
of its character added.
-/

namespace FleetBoard.Json

open Text (utf8 utf8Char utf8_append)

/-! ### Strings -/

def PartialText.ofBytes (bytes : List UInt8) : PartialText := ⟨bytes, true, none⟩

theorem ofNat_toNat_ne {b : UInt8} {c : Char} (other : b.toNat ≠ c.toNat) :
    Char.ofNat b.toNat ≠ c := by
  rintro rfl
  have valid : b.toNat.isValidChar := .inl (Nat.lt_trans b.toNat_lt (by decide))
  rw [Char.ofNat, dif_pos valid] at other
  exact other rfl

theorem step_text_plain {b : UInt8} (bytes : List UInt8) (control : 0x20 ≤ b.toNat)
    (quote : b.toNat ≠ 0x22) (backslash : b.toNat ≠ 0x5c) :
    Token.reader.step (.text (.ofBytes bytes)) b = ([], .text (.ofBytes (b :: bytes))) := by
  have large : ¬ b < 0x20 := by
    rw [UInt8.lt_iff_toNat_lt, Nat.not_lt]
    exact control
  simp only [Token.reader, Token.step, if_neg (ofNat_toNat_ne (c := '"') quote),
    if_neg (ofNat_toNat_ne (c := '\\') backslash), if_neg large]
  rfl

/-- Bytes that are neither controls nor quotes nor backslashes stand for themselves. -/
theorem feed_text_plain {more : List UInt8} (bytes : List UInt8) (plain : ∀ b ∈ more,
    0x20 ≤ b.toNat ∧ b.toNat ≠ 0x22 ∧ b.toNat ≠ 0x5c) :
    Token.reader.feed (.text (.ofBytes bytes)) more =
      ([], .text (.ofBytes (more.reverse ++ bytes))) := by
  induction more generalizing bytes with
  | nil => rfl
  | cons b more ih =>
      obtain ⟨control, quote, backslash⟩ := plain b List.mem_cons_self
      rw [Transducer.feed_cons, step_text_plain bytes control quote backslash,
        ih (b :: bytes) fun d inside => plain d (List.mem_cons_of_mem b inside)]
      simp

/-- The digits of a code unit stand for its character. -/
theorem feed_text_unit {n : Nat} (control : n < 0x20) (bytes : List UInt8) :
    Token.reader.feed (.text (.ofBytes bytes))
      (utf8 (['\\', 'u'] ++ List.replicate (4 - (Text.hexDigits n).length) '0' ++
        Text.hexDigits n)) =
      ([], .text (.ofBytes ((utf8Char (Char.ofNat n)).reverse ++ bytes))) := by
  interval_cases n <;> rfl

/-- What is written for a character inside a string adds the bytes of the character. -/
theorem feed_escapeChar (c : Char) (bytes : List UInt8) :
    Token.reader.feed (.text (.ofBytes bytes)) (utf8 (escapeChar c)) =
      ([], .text (.ofBytes ((utf8Char c).reverse ++ bytes))) := by
  rw [escapeChar]
  split
  · next same => subst same; rfl
  split
  · next same => subst same; rfl
  split
  · next same => subst same; rfl
  split
  · next same => subst same; rfl
  split
  · next same => subst same; rfl
  split
  · next same => subst same; rfl
  split
  · next same => subst same; rfl
  split
  · next control =>
      have written := feed_text_unit control bytes
      rw [Char.ofNat_toNat] at written
      exact written
  · next quote backslash _ _ _ _ _ control =>
      have alone : utf8 [c] = utf8Char c := List.append_nil _
      rw [alone]
      refine feed_text_plain bytes ?_
      intro b inside
      by_cases ascii : b.toNat < 0x80
      · obtain ⟨d, there, same⟩ := Text.mem_of_mem_utf8 ascii (alone ▸ inside)
        obtain rfl := List.mem_singleton.mp there
        have differs {e : Char} (other : d ≠ e) : b.toNat ≠ e.toNat := fun equal =>
          other (Char.toNat_inj.mp (same.trans equal))
        exact ⟨by omega, differs quote, differs backslash⟩
      · omega

theorem feed_escaped (s : List Char) (bytes : List UInt8) :
    Token.reader.feed (.text (.ofBytes bytes)) (utf8 (s.flatMap escapeChar)) =
      ([], .text (.ofBytes ((utf8 s).reverse ++ bytes))) := by
  induction s generalizing bytes with
  | nil => rfl
  | cons c s ih =>
      rw [List.flatMap_cons, utf8_append, Transducer.feed_append, feed_escapeChar, ih,
        Text.utf8_cons, List.reverse_append, List.append_assoc]
      rfl

theorem close_ofBytes (s : String) :
    (PartialText.ofBytes (utf8 s.toList).reverse).close = some s := by
  simp [PartialText.close, PartialText.ofBytes, Text.strictString?]

/-- A written text is read as one token. -/
theorem feed_renderText (s : String) :
    Token.reader.feed .between (utf8 (renderText s.toList)) = ([.text (some s)], .between) := by
  have body := feed_escaped s.toList []
  have quote (bytes : List UInt8) : Token.reader.feed (.text (.ofBytes bytes)) (utf8 ['"']) =
      ([.text (PartialText.ofBytes bytes).close], .between) := rfl
  have opening : Token.reader.feed .between (utf8 ['"']) = ([], .text (.ofBytes [])) := rfl
  rw [List.append_nil] at body
  rw [renderText, List.cons_append, ← List.singleton_append, utf8_append, utf8_append,
    Transducer.feed_append, opening, Transducer.feed_append, body, quote, close_ofBytes]
  rfl

/-! ### Objects of texts and nulls -/

def ofText (s : Option String) : Json :=
  match s with
  | some s => .str s
  | none => .null

def ofTexts (fields : List (String × Option String)) : Json :=
  .obj (fields.map fun f => (f.1, ofText f.2))

def tokenOf (s : Option String) : Token :=
  match s with
  | some s => .text (some s)
  | none => .null

theorem feed_ofText (s : Option String) :
    Token.reader.feed .between (utf8 (render (ofText s))) = ([tokenOf s], .between) := by
  cases s with
  | none => rfl
  | some s =>
      rw [ofText, render]
      exact feed_renderText s

def tokensOf : List (String × Option String) → List Token
  | [] => []
  | [(key, value)] => [.text (some key), .colon, tokenOf value]
  | (key, value) :: fields =>
      .text (some key) :: .colon :: tokenOf value :: .comma :: tokensOf fields

theorem feed_field (key : String) (value : Option String) (bytes : List UInt8) :
    Token.reader.feed .between
        (utf8 (renderText key.toList) ++ (utf8 [':'] ++ (utf8 (render (ofText value)) ++ bytes))) =
      (.text (some key) :: .colon :: tokenOf value :: (Token.reader.feed .between bytes).1,
        (Token.reader.feed .between bytes).2) := by
  have colon : Token.reader.feed .between (utf8 [':']) = ([.colon], .between) := rfl
  rw [Transducer.feed_append, feed_renderText, Transducer.feed_append, colon,
    Transducer.feed_append, feed_ofText]
  rfl

theorem feed_fields (fields : List (String × Option String)) :
    Token.reader.feed .between (utf8 (renderFields (fields.map fun f => (f.1, ofText f.2)))) =
      (tokensOf fields, .between) := by
  induction fields with
  | nil => rfl
  | cons f fields ih =>
      obtain ⟨key, value⟩ := f
      cases fields with
      | nil =>
          have one := feed_field key value []
          rw [List.append_nil, ← utf8_append, ← utf8_append] at one
          exact one
      | cons g fields =>
          have comma : Token.reader.feed .between (utf8 [',']) = ([.comma], .between) := rfl
          have others : Token.reader.feed .between (utf8 [','] ++
              utf8 (renderFields ((g :: fields).map fun f => (f.1, ofText f.2)))) =
                (.comma :: tokensOf (g :: fields), .between) := by
            rw [Transducer.feed_append, comma, ih]
            rfl
          have first := feed_field key value (utf8 [','] ++
            utf8 (renderFields ((g :: fields).map fun f => (f.1, ofText f.2))))
          rw [others, ← utf8_append, ← utf8_append, ← utf8_append, ← utf8_append] at first
          exact first

theorem scan_ofTexts (fields : List (String × Option String)) :
    Token.scan (utf8 (render (ofTexts fields))) =
      .openBrace :: (tokensOf fields ++ [.closeBrace]) := by
  have opening : Token.reader.feed .between (utf8 ['\x7b']) = ([.openBrace], .between) := rfl
  have closing : Token.reader.feed .between (utf8 ['\x7d']) = ([.closeBrace], .between) := rfl
  rw [Token.scan, Transducer.run_eq, ofTexts, render, List.cons_append, ← List.singleton_append,
    utf8_append, utf8_append, Transducer.feed_append, opening, Transducer.feed_append, feed_fields,
    closing]
  exact List.append_nil _

def docOf (s : Option String) : Doc :=
  match s with
  | some s => .text (some s)
  | none => .null

def docFields (fields : List (String × Option String)) : List (Option String × Doc) :=
  fields.map fun f => (some f.1, docOf f.2)

/-- The last field closes the object, each one before it goes to the fields that have been read. -/
theorem build_fields (key : String) (value : Option String) (fields : List (String × Option String))
    (seen : List (Option String × Doc)) {expect : Doc.Expect}
    (ready : expect = .firstKey ∨ expect = .key) :
    Doc.build [.obj seen] expect (tokensOf ((key, value) :: fields) ++ [.closeBrace]) =
      (.obj (seen.reverse ++ docFields ((key, value) :: fields)) none, []) := by
  induction fields generalizing key value seen expect with
  | nil =>
      have closed : (Doc.obj ((some key, docOf value) :: seen).reverse none, ([] : List Token)) =
          (.obj (seen.reverse ++ docFields [(key, value)]) none, []) := by
        simp [docFields]
      rw [← closed]
      rcases ready with rfl | rfl <;> cases value <;> rfl
  | cons g fields ih =>
      obtain ⟨name, other⟩ := g
      have later := ih name other ((some key, docOf value) :: seen) (.inr rfl)
      have added :
          ((some key, docOf value) :: seen).reverse ++ docFields ((name, other) :: fields) =
          seen.reverse ++ docFields ((key, value) :: (name, other) :: fields) := by
        simp [docFields]
      rw [← added, ← later]
      rcases ready with rfl | rfl <;> cases value <;> rfl

theorem ofBytes_ofTexts (fields : List (String × Option String)) :
    Doc.ofBytes (utf8 (render (ofTexts fields))) = (.obj (docFields fields) none, []) := by
  rw [Doc.ofBytes, scan_ofTexts]
  cases fields with
  | nil => rfl
  | cons f fields => exact build_fields f.1 f.2 fields [] (.inl rfl)

theorem toJsonFields_docFields (fields : List (String × Option String)) :
    Doc.toJsonFields (docFields fields) = .ok (fields.map fun f => (f.1, ofText f.2)) := by
  induction fields with
  | nil => rfl
  | cons f fields ih =>
      obtain ⟨key, value⟩ := f
      have leaf : Doc.toJson (docOf value) = .ok (ofText value) := by cases value <;> rfl
      rw [docFields, List.map_cons, Doc.toJsonFields, leaf, ← docFields, ih]
      rfl

/-- An object of texts and nulls is read as it was written, but for the order of its fields. -/
theorem readWhole_ofTexts (fields : List (String × Option String)) :
    readWhole Doc.toJson (utf8 (render (ofTexts fields))) =
      .ok (.obj (sortFields (fields.map fun f => (f.1, ofText f.2)))) := by
  have value : Doc.toJson (.obj (docFields fields) none) =
      .ok (.obj (sortFields (fields.map fun f => (f.1, ofText f.2)))) := by
    rw [Doc.toJson, toJsonFields_docFields]
    rfl
  rw [readWhole, ofBytes_ofTexts]
  dsimp only
  rw [value]
  rfl

/-! ### Fields by name -/

theorem lookup_insertSorted (key name : String) (value : Json) (fields : List (String × Json)) :
    lookup name (insertSorted key value fields) =
      if key = name then some value else lookup name fields := by
  induction fields with
  | nil => rfl
  | cons f fields ih =>
      obtain ⟨k, v⟩ := f
      rw [insertSorted]
      split
      · rfl
      split
      · next same =>
          subst same
          rw [lookup, lookup]
          split <;> rfl
      · next different =>
          rw [lookup, ih, lookup]
          split
          · next here =>
              subst here
              rw [if_neg different]
          · rfl

/-- Of two fields with one name the later is found. -/
theorem lookup_sortFields (name : String) (fields : List (String × Json)) :
    lookup name (sortFields fields) = lookup name fields.reverse := by
  induction fields using List.reverseRecOn with
  | nil => rfl
  | append_singleton fields f ih =>
      rw [sortFields, List.foldl_append, List.foldl_cons, List.foldl_nil, ← sortFields,
        lookup_insertSorted, ih]
      simp [lookup]

/-! ### Texts on one line -/

theorem newline_not_mem_unit : ∀ n < 0x20, '\n' ∉
    ['\\', 'u'] ++ List.replicate (4 - (Text.hexDigits n).length) '0' ++ Text.hexDigits n := by
  decide +kernel

theorem newline_not_mem_escapeChar (c : Char) : '\n' ∉ escapeChar c := by
  rw [escapeChar]
  split
  · decide
  split
  · decide
  split
  · decide
  split
  · decide
  split
  · decide
  · next newline =>
      split
      · decide
      split
      · decide
      split
      · next control => exact newline_not_mem_unit c.toNat control
      · intro inside
        exact newline (List.mem_singleton.mp inside).symm

theorem newline_not_mem_renderText (s : List Char) : '\n' ∉ renderText s := by
  rw [renderText, List.cons_append, List.mem_cons, List.mem_append, List.mem_singleton]
  rintro (quote | inside | quote)
  · cases quote
  · obtain ⟨c, -, escaped⟩ := List.mem_flatMap.mp inside
    exact newline_not_mem_escapeChar c escaped
  · cases quote

theorem newline_not_mem_ofText (s : Option String) : '\n' ∉ render (ofText s) := by
  cases s with
  | none => decide
  | some s =>
      rw [ofText, render]
      exact newline_not_mem_renderText s.toList

theorem newline_not_mem_fields (fields : List (String × Option String)) :
    '\n' ∉ renderFields (fields.map fun f => (f.1, ofText f.2)) := by
  induction fields with
  | nil => decide
  | cons f fields ih =>
      have key := newline_not_mem_renderText f.1.toList
      have value := newline_not_mem_ofText f.2
      cases fields with
      | nil => simp [renderFields, key, value]
      | cons g fields =>
          rw [List.map_cons] at ih
          simp [renderFields, key, value, ih]

/-- An object of texts and nulls is written on one line. -/
theorem newline_not_mem_ofTexts (fields : List (String × Option String)) :
    '\n' ∉ render (ofTexts fields) := by
  rw [ofTexts, render]
  simp [newline_not_mem_fields fields]

end FleetBoard.Json
