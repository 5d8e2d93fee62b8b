import ReplayRenderer.Lib.Text

/-!
JSON documents: the values, and the grammar of the texts that denote a value. A
printer is any function whose texts denote what they are printed of; the one with
an item a line is the value of that parameter where a statement is about concrete
texts.
-/

namespace Lib

/-- A document. Its numbers are integers. -/
inductive JsonValue where
  | null
  | bool (b : Bool)
  | num (n : Int)
  | str (s : String)
  | arr (items : List JsonValue)
  | obj (members : List (String × JsonValue))

/-! ### The rendering -/

def escapeChar (c : Char) : String :=
  match c.toNat with
  | 0x08 => "\\b"
  | 0x09 => "\\t"
  | 0x0a => "\\n"
  | 0x0c => "\\f"
  | 0x0d => "\\r"
  | 0x22 => "\\\""
  | 0x5c => "\\\\"
  | n => if n < 0x20 then "\\u" ++ hexDigits 4 n else String.singleton c

def escaped : List Char → String
  | [] => ""
  | c :: cs => escapeChar c ++ escaped cs

def quoted (s : String) : String := "\"" ++ escaped s.toList ++ "\""

def indent (depth : Nat) : String := String.ofList (List.replicate (2 * depth) ' ')

mutual

/-- One item or member a line, two blanks deeper than what it is in. -/
def JsonValue.pretty (depth : Nat) : JsonValue → String
  | .null => "null"
  | .bool b => if b then "true" else "false"
  | .num n => toString n
  | .str s => quoted s
  | .arr items =>
    if items.isEmpty then "[]"
    else "[" ++ ("\n" ++ JsonValue.prettyItems (depth + 1) items ++ ("\n" ++ indent depth)) ++ "]"
  | .obj members =>
    if members.isEmpty then "\x7b\x7d"
    else
      "\x7b" ++ ("\n" ++ JsonValue.prettyMembers (depth + 1) members ++ ("\n" ++ indent depth))
        ++ "\x7d"

def JsonValue.prettyItems (depth : Nat) : List JsonValue → String
  | [] => ""
  | [v] => indent depth ++ v.pretty depth
  | v :: v' :: rest =>
    indent depth ++ v.pretty depth ++ ("," ++ "\n" ++ JsonValue.prettyItems depth (v' :: rest))

def JsonValue.prettyMembers (depth : Nat) : List (String × JsonValue) → String
  | [] => ""
  | [(k, v)] => indent depth ++ quoted k ++ ":" ++ " " ++ v.pretty depth
  | (k, v) :: m :: rest =>
    indent depth ++ quoted k ++ ":" ++ " " ++ v.pretty depth
      ++ ("," ++ "\n" ++ JsonValue.prettyMembers depth (m :: rest))

end

/-! ### The grammar -/

def Blank (w : String) : Prop := ∀ c ∈ w.toList, c ∈ [' ', '\t', '\n', '\r']

def shortEscapes : List (String × Nat) :=
  [("\"", 0x22), ("\\", 0x5c), ("/", 0x2f), ("b", 0x08), ("f", 0x0c), ("n", 0x0a), ("r", 0x0d),
    ("t", 0x09)]

inductive CharText : Char → String → Prop
  | plain {c : Char} (printable : 0x20 ≤ c.toNat) (quote : c.toNat ≠ 0x22)
      (backslash : c.toNat ≠ 0x5c) : CharText c (String.singleton c)
  | short {e : String} {n : Nat} (mem : (e, n) ∈ shortEscapes) : CharText (Char.ofNat n) ("\\" ++ e)
  | unicode {digits : String} {n : Nat} (valid : n.isValidChar) (lt : n < 0x10000)
      (hex : digits.toList.map Char.toLower = (hexDigits 4 n).toList) :
      CharText (Char.ofNat n) ("\\u" ++ digits)

inductive CharsText : List Char → String → Prop
  | nil : CharsText [] ""
  | cons {c : Char} {cs : List Char} {t u : String} (head : CharText c t) (tail : CharsText cs u) :
      CharsText (c :: cs) (t ++ u)

mutual

inductive ValueText : JsonValue → String → Prop
  | null : ValueText .null "null"
  | true : ValueText (.bool true) "true"
  | false : ValueText (.bool false) "false"
  | num (n : Int) : ValueText (.num n) (toString n)
  | str {s t : String} (chars : CharsText s.toList t) : ValueText (.str s) ("\"" ++ t ++ "\"")
  | arr {items : List JsonValue} {t : String} (inside : ItemsText items t) :
      ValueText (.arr items) ("[" ++ t ++ "]")
  | obj {members : List (String × JsonValue)} {t : String} (inside : MembersText members t) :
      ValueText (.obj members) ("\x7b" ++ t ++ "\x7d")

/-- A value with blanks around it: what a document is. -/
inductive JsonText : JsonValue → String → Prop
  | mk {v : JsonValue} {w t w' : String} (before : Blank w) (value : ValueText v t)
      (after : Blank w') : JsonText v (w ++ t ++ w')

inductive ItemsText : List JsonValue → String → Prop
  | none {w : String} (blank : Blank w) : ItemsText [] w
  | one {v : JsonValue} {t : String} (item : JsonText v t) : ItemsText [v] t
  | more {v v' : JsonValue} {rest : List JsonValue} {t u : String} (item : JsonText v t)
      (items : ItemsText (v' :: rest) u) : ItemsText (v :: v' :: rest) (t ++ "," ++ u)

inductive MemberText : String × JsonValue → String → Prop
  | mk {k : String} {v : JsonValue} {w t w' u : String} (before : Blank w)
      (key : CharsText k.toList t) (after : Blank w') (value : JsonText v u) :
      MemberText (k, v) (w ++ ("\"" ++ t ++ "\"") ++ w' ++ ":" ++ u)

inductive MembersText : List (String × JsonValue) → String → Prop
  | none {w : String} (blank : Blank w) : MembersText [] w
  | one {m : String × JsonValue} {t : String} (member : MemberText m t) : MembersText [m] t
  | more {m m' : String × JsonValue} {rest : List (String × JsonValue)} {t u : String}
      (member : MemberText m t) (members : MembersText (m' :: rest) u) :
      MembersText (m :: m' :: rest) (t ++ "," ++ u)

end

theorem blank_empty : Blank "" := by simp [Blank]

theorem blank_newline : Blank "\n" := by simp [Blank]

theorem blank_indent (depth : Nat) : Blank (indent depth) := by
  intro c hc
  rw [indent, String.toList_ofList] at hc
  simp [(List.mem_replicate.mp hc).2]

theorem Blank.append {w w' : String} (h : Blank w) (h' : Blank w') : Blank (w ++ w') := by
  intro c hc
  rw [String.toList_append, List.mem_append] at hc
  exact hc.elim (h c) (h' c)

/-- What the function prints of a value denotes the value. -/
def Prints (print : JsonValue → String) : Prop := ∀ v, JsonText v (print v)

theorem JsonText.append {v : JsonValue} {s w : String} (h : JsonText v s) (hw : Blank w) :
    JsonText v (s ++ w) := by
  obtain ⟨before, value, after⟩ := h
  rw [String.append_assoc]
  exact .mk before value (after.append hw)

/-! ### What the rendering prints -/

theorem charText_control (n : Fin 0x20) :
    CharText (Char.ofNat n) ("\\u" ++ hexDigits 4 n) := by
  refine .unicode (.inl (by omega)) (by omega) ?_
  revert n
  decide

theorem charText_escapeChar (c : Char) : CharText c (escapeChar c) := by
  have hshort : ∀ {e n}, (e, n) ∈ shortEscapes → c.toNat = n → CharText c ("\\" ++ e) := by
    rintro e n hmem rfl
    have h := CharText.short hmem
    rwa [Char.ofNat_toNat] at h
  unfold escapeChar
  split
  · next h => exact hshort (e := "b") (by simp [shortEscapes]) h
  · next h => exact hshort (e := "t") (by simp [shortEscapes]) h
  · next h => exact hshort (e := "n") (by simp [shortEscapes]) h
  · next h => exact hshort (e := "f") (by simp [shortEscapes]) h
  · next h => exact hshort (e := "r") (by simp [shortEscapes]) h
  · next h => exact hshort (e := "\"") (by simp [shortEscapes]) h
  · next h => exact hshort (e := "\\") (by simp [shortEscapes]) h
  · next hquote hslash =>
      split
      · next hlt =>
          have h := charText_control ⟨c.toNat, hlt⟩
          rwa [Char.ofNat_toNat] at h
      · next hge => exact .plain (not_lt.mp hge) hquote hslash

theorem charsText_escaped (cs : List Char) : CharsText cs (escaped cs) := by
  induction cs with
  | nil => exact .nil
  | cons c cs ih => exact .cons (charText_escapeChar c) ih

mutual

theorem valueText_pretty (depth : Nat) : (v : JsonValue) → ValueText v (v.pretty depth)
  | .null => .null
  | .bool true => .true
  | .bool false => .false
  | .num n => .num n
  | .str s => .str (charsText_escaped s.toList)
  | .arr [] => .arr (.none blank_empty)
  | .arr (v :: rest) =>
    .arr (itemsText_pretty (depth + 1) blank_newline
      (blank_newline.append (blank_indent depth)) (v :: rest) (List.cons_ne_nil v rest))
  | .obj [] => .obj (.none blank_empty)
  | .obj (m :: rest) =>
    .obj (membersText_pretty (depth + 1) blank_newline
      (blank_newline.append (blank_indent depth)) (m :: rest) (List.cons_ne_nil m rest))

/-- The blanks around the items belong to the first and the last. -/
theorem itemsText_pretty (depth : Nat) {w w' : String} (hw : Blank w) (hw' : Blank w') :
    (items : List JsonValue) → items ≠ [] →
      ItemsText items (w ++ JsonValue.prettyItems depth items ++ w')
  | [v], _ => by
      have hitem := JsonText.mk (hw.append (blank_indent depth)) (valueText_pretty depth v) hw'
      rw [JsonValue.prettyItems, ← String.append_assoc]
      exact .one hitem
  | v :: v' :: rest, _ => by
      have hitem := JsonText.mk (hw.append (blank_indent depth)) (valueText_pretty depth v)
        blank_empty
      have hrest := itemsText_pretty depth blank_newline hw' (v' :: rest) (List.cons_ne_nil _ _)
      have hall := ItemsText.more hitem hrest
      rw [JsonValue.prettyItems]
      simpa only [String.append_assoc, String.append_empty] using hall

theorem membersText_pretty (depth : Nat) {w w' : String} (hw : Blank w) (hw' : Blank w') :
    (members : List (String × JsonValue)) → members ≠ [] →
      MembersText members (w ++ JsonValue.prettyMembers depth members ++ w')
  | [(k, v)], _ => by
      have hvalue := JsonText.mk (v := v) (w := " ") (by simp [Blank]) (valueText_pretty depth v) hw'
      have hmember := MemberText.mk (hw.append (blank_indent depth)) (charsText_escaped k.toList)
        blank_empty hvalue
      have hone := MembersText.one hmember
      rw [JsonValue.prettyMembers, quoted]
      simpa only [String.append_assoc, String.empty_append] using hone
  | (k, v) :: m :: rest, _ => by
      have hvalue := JsonText.mk (v := v) (w := " ") (by simp [Blank]) (valueText_pretty depth v)
        blank_empty
      have hmember := MemberText.mk (hw.append (blank_indent depth)) (charsText_escaped k.toList)
        blank_empty hvalue
      have hrest := membersText_pretty depth blank_newline hw' (m :: rest) (List.cons_ne_nil _ _)
      have hall := MembersText.more hmember hrest
      rw [JsonValue.prettyMembers, quoted]
      simpa only [String.append_assoc, String.append_empty, String.empty_append] using hall

end

theorem prints_pretty (depth : Nat) : Prints (JsonValue.pretty depth) := by
  intro v
  have h := JsonText.mk blank_empty (valueText_pretty depth v) blank_empty
  rwa [String.empty_append, String.append_empty] at h

end Lib
