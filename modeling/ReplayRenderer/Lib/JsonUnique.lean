import ReplayRenderer.Lib.Decimal
import ReplayRenderer.Lib.JsonText

/-!
A text denotes one JSON value: where an item, a string or a numeral ends is told
by the first character that cannot belong to it.
-/

namespace Lib

/-! ### Where the parts of a text end -/

theorem takeWhile_append {p : Char → Prop} [DecidablePred p] {xs t : List Char}
    (hxs : ∀ c ∈ xs, p c) (ht : ∀ c ∈ t.head?, ¬p c) : (xs ++ t).takeWhile p = xs := by
  rw [List.takeWhile_append_of_pos (by simpa using hxs)]
  cases t with
  | nil => simp
  | cons c t => simpa using ht c

/-- A text is cut in one way before the first character without `p`. -/
theorem append_split (p : Char → Prop) [DecidablePred p] {xs ys t t' : List Char}
    (hxs : ∀ c ∈ xs, p c) (hys : ∀ c ∈ ys, p c) (ht : ∀ c ∈ t.head?, ¬p c)
    (ht' : ∀ c ∈ t'.head?, ¬p c) (h : xs ++ t = ys ++ t') : xs = ys ∧ t = t' := by
  have hxys : xs = ys := by
    rw [← takeWhile_append hxs ht, h, takeWhile_append hys ht']
  subst hxys
  exact ⟨rfl, List.append_cancel_left h⟩

def blanks : List Char := [' ', '\t', '\n', '\r']

def closers : List Char := [',', ']', '\x7d']

theorem comma_closer : ',' ∈ closers := by decide

theorem bracket_closer : ']' ∈ closers := by decide

theorem brace_closer : '\x7d' ∈ closers := by decide

/-- Nothing more, or the end of an item. -/
def Closed (t : List Char) : Prop := ∀ c ∈ t.head?, c ∈ closers

theorem closed_nil : Closed [] := by simp [Closed]

theorem closed_cons {c : Char} {t : List Char} (h : c ∈ closers) : Closed (c :: t) := by
  simpa [Closed] using h

theorem Closed.notMem_blanks {t : List Char} (h : Closed t) : ∀ c ∈ t.head?, c ∉ blanks := by
  intro c hc hblank
  have hcloser := h c hc
  revert hblank
  simp only [closers, List.mem_cons, List.not_mem_nil, or_false] at hcloser
  rcases hcloser with rfl | rfl | rfl <;> decide

theorem Blank.split {w w' : String} {t t' : List Char} (hw : Blank w) (hw' : Blank w')
    (ht : ∀ c ∈ t.head?, c ∉ blanks) (ht' : ∀ c ∈ t'.head?, c ∉ blanks)
    (h : w.toList ++ t = w'.toList ++ t') : t = t' :=
  (append_split (· ∈ blanks) hw hw' ht ht' h).2

/-! ### Strings -/

def readChar : List Char → Option (Char × List Char)
  | '\\' :: 'u' :: a :: b :: c :: d :: rest =>
      some (Char.ofNat (hexValue ([a, b, c, d].map Char.toLower)), rest)
  | '\\' :: e :: rest =>
      (shortEscapes.lookup (String.singleton e)).map fun n => (Char.ofNat n, rest)
  | c :: rest => some (c, rest)
  | [] => none

theorem readChar_charText {c : Char} {s : String} (h : CharText c s) (rest : List Char) :
    readChar (s.toList ++ rest) = some (c, rest) := by
  cases h with
  | plain _ _ backslash =>
      have hc : c ≠ '\\' := by
        rintro rfl
        exact backslash rfl
      simp [readChar, hc]
  | short mem =>
      simp only [shortEscapes, List.mem_cons, Prod.mk.injEq, List.not_mem_nil, or_false] at mem
      rcases mem with ⟨rfl, rfl⟩ | ⟨rfl, rfl⟩ | ⟨rfl, rfl⟩ | ⟨rfl, rfl⟩ | ⟨rfl, rfl⟩ | ⟨rfl, rfl⟩ |
        ⟨rfl, rfl⟩ | ⟨rfl, rfl⟩ <;> rfl
  | @unicode digits _ _ lt hex =>
      have hlength : digits.toList.length = 4 := by
        rw [← List.length_map (f := Char.toLower), hex, String.length_toList,
          length_hexDigits (by decide) lt]
      obtain ⟨a, b, c, d, hdigits⟩ := List.length_eq_four.mp hlength
      rw [hdigits] at hex
      rw [String.toList_append, hdigits]
      simp [readChar, hex, hexValue_hexDigits]

theorem CharText.split {c c' : Char} {s s' : String} {t t' : List Char} (h : CharText c s)
    (h' : CharText c' s') (heq : s.toList ++ t = s'.toList ++ t') : c = c' ∧ t = t' := by
  have hread := readChar_charText h t
  rw [heq, readChar_charText h' t'] at hread
  simp only [Option.some.injEq, Prod.mk.injEq] at hread
  exact ⟨hread.1.symm, hread.2.symm⟩

/-- What starts a character of a string is not what ends the string. -/
theorem CharText.head {c : Char} {s : String} (h : CharText c s) :
    ∃ d ds, s.toList = d :: ds ∧ d ≠ '"' := by
  cases h with
  | plain _ quote _ =>
      refine ⟨c, [], by simp, ?_⟩
      rintro rfl
      exact quote rfl
  | short _ => exact ⟨'\\', _, by rw [String.toList_append]; rfl, by decide⟩
  | unicode _ _ _ => exact ⟨'\\', _, by rw [String.toList_append]; rfl, by decide⟩

theorem CharsText.split {cs cs' : List Char} {s s' : String} {t t' : List Char}
    (h : CharsText cs s) (h' : CharsText cs' s')
    (heq : s.toList ++ '"' :: t = s'.toList ++ '"' :: t') : cs = cs' ∧ t = t' := by
  induction h generalizing cs' s' with
  | nil =>
      cases h' with
      | nil => simpa using heq
      | cons head' _ =>
          obtain ⟨d, ds, hd, hquote⟩ := head'.head
          rw [String.toList_append, hd] at heq
          simp at heq
          exact absurd heq.1.symm hquote
  | cons head _ ih =>
      cases h' with
      | nil =>
          obtain ⟨d, ds, hd, hquote⟩ := head.head
          rw [String.toList_append, hd] at heq
          simp at heq
          exact absurd heq.1 hquote
      | cons head' tail' =>
          rw [String.toList_append, String.toList_append, List.append_assoc,
            List.append_assoc] at heq
          obtain ⟨rfl, hrest⟩ := head.split head' heq
          obtain ⟨rfl, rfl⟩ := ih tail' hrest
          exact ⟨rfl, rfl⟩

/-! ### Values -/

inductive JsonKind where
  | null
  | true
  | false
  | num
  | str
  | arr
  | obj
  deriving DecidableEq

def kindOf (c : Char) : JsonKind :=
  if c = 'n' then .null
  else if c = 't' then .true
  else if c = 'f' then .false
  else if c = '"' then .str
  else if c = '[' then .arr
  else if c = '\x7b' then .obj
  else .num

def JsonValue.kind : JsonValue → JsonKind
  | .null => .null
  | .bool true => .true
  | .bool false => .false
  | .num _ => .num
  | .str _ => .str
  | .arr _ => .arr
  | .obj _ => .obj

def InNumeral (c : Char) : Prop := c.isDigit = true ∨ c = '-'

instance : DecidablePred InNumeral :=
  fun c => inferInstanceAs (Decidable (c.isDigit = true ∨ c = '-'))

theorem inNumeral_of_mem_toString {n : Int} {c : Char} (h : c ∈ (toString n).toList) :
    InNumeral c := by
  cases n with
  | ofNat m =>
      have hdigit : c ∈ Nat.toDigits 10 m := by simpa [toString, Int.repr] using h
      exact .inl (isDigit_of_mem_repr hdigit)
  | negSucc m =>
      have hdigit : c = '-' ∨ c ∈ Nat.toDigits 10 (m + 1) := by
        simpa [toString, Int.repr] using h
      exact hdigit.symm.imp_left isDigit_of_mem_repr

theorem toString_cons (n : Int) : ∃ c cs, (toString n).toList = c :: cs := by
  have hne : (toString n).toList ≠ [] := by
    cases n with
    | ofNat m => simp [toString, Int.repr]
    | negSucc m => simp [toString, Int.repr]
  exact List.exists_cons_of_ne_nil hne

theorem InNumeral.start {c : Char} (h : InNumeral c) :
    kindOf c = .num ∧ c ∉ blanks ∧ c ∉ closers := by
  have hne : ∀ d : Char, ¬InNumeral d → c ≠ d := by
    rintro d hd rfl
    exact hd h
  refine ⟨?_, ?_, ?_⟩
  · simp [kindOf, hne 'n' (by decide), hne 't' (by decide), hne 'f' (by decide),
      hne '"' (by decide), hne '[' (by decide), hne '\x7b' (by decide)]
  · simp [blanks, hne ' ' (by decide), hne '\t' (by decide), hne '\n' (by decide),
      hne '\r' (by decide)]
  · simp [closers, hne ',' (by decide), hne ']' (by decide), hne '\x7d' (by decide)]

/-- The first character of a value tells its kind, and is no blank and no end of an item. -/
theorem ValueText.head {v : JsonValue} {s : String} (h : ValueText v s) :
    ∃ c cs, s.toList = c :: cs ∧ kindOf c = v.kind ∧ c ∉ blanks ∧ c ∉ closers := by
  cases h with
  | null => exact ⟨'n', _, rfl, rfl, by decide, by decide⟩
  | true => exact ⟨'t', _, rfl, rfl, by decide, by decide⟩
  | false => exact ⟨'f', _, rfl, rfl, by decide, by decide⟩
  | num n =>
      obtain ⟨c, cs, hcs⟩ := toString_cons n
      refine ⟨c, cs, hcs, (inNumeral_of_mem_toString (n := n) ?_).start⟩
      rw [hcs]
      exact List.mem_cons_self
  | @str _ t _ => exact ⟨'"', t.toList ++ ['"'], by simp, rfl, by decide, by decide⟩
  | @arr _ t _ => exact ⟨'[', t.toList ++ [']'], by simp, rfl, by decide, by decide⟩
  | @obj _ t _ => exact ⟨'\x7b', t.toList ++ ['\x7d'], by simp, rfl, by decide, by decide⟩

/-- Values of two kinds have different texts. -/
theorem ValueText.kind_eq {v v' : JsonValue} {s s' : String} {t t' : List Char}
    (h : ValueText v s) (h' : ValueText v' s') (heq : s.toList ++ t = s'.toList ++ t') :
    v.kind = v'.kind := by
  obtain ⟨c, cs, hcs, hkind, -⟩ := h.head
  obtain ⟨c', cs', hcs', hkind', -⟩ := h'.head
  rw [hcs, hcs'] at heq
  simp only [List.cons_append, List.cons.injEq] at heq
  rw [← hkind, ← hkind', heq.1]

theorem JsonText.not_closed {v : JsonValue} {w s : String} {c : Char} {t t' : List Char}
    (hw : Blank w) (hc : c ∈ closers) (h : JsonText v s) :
    w.toList ++ c :: t ≠ s.toList ++ t' := by
  intro heq
  obtain ⟨before, value, _⟩ := h
  obtain ⟨d, ds, hds, -, hblank, hcloser⟩ := value.head
  rw [String.toList_append, String.toList_append, hds, List.append_assoc, List.append_assoc] at heq
  have hrest := hw.split before (closed_cons hc).notMem_blanks (by simpa using hblank) heq
  simp only [List.cons_append, List.cons.injEq] at hrest
  exact hcloser (hrest.1 ▸ hc)

theorem MemberText.not_closed {m : String × JsonValue} {w s : String} {c : Char}
    {t t' : List Char} (hw : Blank w) (hc : c ∈ closers) (h : MemberText m s) :
    w.toList ++ c :: t ≠ s.toList ++ t' := by
  intro heq
  obtain ⟨before, _, _, _⟩ := h
  simp only [String.toList_append, List.append_assoc] at heq
  have hrest := hw.split before (closed_cons hc).notMem_blanks (by simp [blanks]) heq
  simp at hrest
  revert hc
  rw [hrest.1]
  decide

/-! ### Documents and members -/

/-- What comes after a value does not go on with a numeral. -/
def Ended (t : List Char) : Prop := ∀ c ∈ t.head?, ¬InNumeral c

theorem Closed.ended {t : List Char} (h : Closed t) : Ended t :=
  fun c hc hnum => hnum.start.2.2 (h c hc)

theorem ended_blank {w : String} {t : List Char} (hw : Blank w) (ht : Ended t) :
    Ended (w.toList ++ t) := by
  intro c hc hnum
  rcases hlist : w.toList with _ | ⟨d, ds⟩
  · rw [hlist] at hc
    exact ht c hc hnum
  · rw [hlist] at hc
    obtain rfl : d = c := by simpa using hc
    exact hnum.start.2.1 (hw d (by rw [hlist]; exact List.mem_cons_self))

/-- The texts of a value end before anything but a numeral's character, and are no other's. -/
def Delimited (v : JsonValue) : Prop :=
  ∀ {v' : JsonValue} {s s' : String} {t t' : List Char}, ValueText v s → ValueText v' s' →
    Ended t → Ended t' → s.toList ++ t = s'.toList ++ t' → v = v' ∧ t = t'

/-- The texts of `a` that something closes are no other's. -/
def Splits {α : Type} (R : α → String → Prop) (a : α) : Prop :=
  ∀ {a' : α} {s s' : String} {t t' : List Char}, R a s → R a' s' → Closed t → Closed t' →
    s.toList ++ t = s'.toList ++ t' → a = a' ∧ t = t'

/-- A document inside another ends before what closes an item. -/
theorem Delimited.jsonText {v : JsonValue} (hv : Delimited v) : Splits JsonText v := by
  intro v' s s' t t' h h' ht ht' heq
  obtain ⟨before, value, after⟩ := h
  obtain ⟨before', value', after'⟩ := h'
  obtain ⟨c, cs, hcs, -, hblank, -⟩ := value.head
  obtain ⟨c', cs', hcs', -, hblank', -⟩ := value'.head
  simp only [String.toList_append, List.append_assoc] at heq
  have hvalue := before.split before' (by simpa [hcs] using hblank)
    (by simpa [hcs'] using hblank') heq
  obtain ⟨rfl, hrest⟩ := hv value value' (ended_blank after ht.ended)
    (ended_blank after' ht'.ended) hvalue
  exact ⟨rfl, after.split after' ht.notMem_blanks ht'.notMem_blanks hrest⟩

theorem Delimited.memberText {m : String × JsonValue} (hv : Delimited m.2) :
    Splits MemberText m := by
  intro m' s s' t t' h h' ht ht' heq
  obtain ⟨before, key, after, value⟩ := h
  obtain ⟨before', key', after', value'⟩ := h'
  simp only [String.toList_append, List.append_assoc] at heq
  have hkey := before.split before' (by simp [blanks]) (by simp [blanks]) heq
  obtain ⟨hk, hcolon⟩ := key.split key' (List.append_cancel_left hkey)
  have hvalue := after.split after' (by simp [blanks]) (by simp [blanks]) hcolon
  obtain ⟨rfl, hrest⟩ :=
    Delimited.jsonText hv value value' ht ht' (List.append_cancel_left hvalue)
  exact ⟨by rw [String.toList_inj.mp hk], hrest⟩

/-! ### Items and members -/

inductive Separated {α : Type} (R : α → String → Prop) : List α → String → Prop
  | none {w : String} (blank : Blank w) : Separated R [] w
  | one {a : α} {t : String} (item : R a t) : Separated R [a] t
  | more {a a' : α} {rest : List α} {t u : String} (item : R a t)
      (items : Separated R (a' :: rest) u) : Separated R (a :: a' :: rest) (t ++ "," ++ u)

theorem separated_items {items : List JsonValue} {s : String} (h : ItemsText items s) :
    Separated JsonText items s := by
  induction items generalizing s with
  | nil =>
      obtain ⟨blank⟩ := h
      exact .none blank
  | cons v rest ih =>
      cases h with
      | one item => exact .one item
      | more item items => exact .more item (ih items)

theorem separated_members {members : List (String × JsonValue)} {s : String}
    (h : MembersText members s) : Separated MemberText members s := by
  induction members generalizing s with
  | nil =>
      obtain ⟨blank⟩ := h
      exact .none blank
  | cons m rest ih =>
      cases h with
      | one member => exact .one member
      | more member members => exact .more member (ih members)

/-- Items end at what closes them all, if each ends where it is closed and none starts so. -/
theorem Separated.split {α : Type} {R : α → String → Prop} {close : Char}
    (hclose : close ∈ closers) (hcomma : close ≠ ',')
    (hstart : ∀ {a : α} {w s : String} {t t' : List Char}, Blank w → R a s →
      w.toList ++ close :: t ≠ s.toList ++ t')
    {items items' : List α} {s s' : String} {t t' : List Char} (hitems : ∀ a ∈ items, Splits R a)
    (h : Separated R items s) (h' : Separated R items' s')
    (heq : s.toList ++ close :: t = s'.toList ++ close :: t') : items = items' ∧ t = t' := by
  have hc : ∀ {u : List Char}, Closed (close :: u) := closed_cons hclose
  have hsep : ∀ {u : List Char}, Closed (',' :: u) := closed_cons comma_closer
  -- on the first reading; an item that ends at a comma here cannot end at `close` there
  induction h generalizing items' s' with
  | none blank =>
      cases h' with
      | none blank' =>
          have hrest := blank.split blank' hc.notMem_blanks hc.notMem_blanks heq
          exact ⟨rfl, (List.cons.inj hrest).2⟩
      | one item' => exact absurd heq (hstart blank item')
      | more item' _ =>
          simp only [String.toList_append, List.append_assoc] at heq
          exact absurd heq (hstart blank item')
  | one item =>
      have ha : Splits R _ := hitems _ List.mem_cons_self
      cases h' with
      | none blank' => exact absurd heq.symm (hstart blank' item)
      | one item' =>
          obtain ⟨rfl, hend⟩ := ha item item' hc hc heq
          exact ⟨rfl, (List.cons.inj hend).2⟩
      | more item' _ =>
          simp only [String.toList_append, List.append_assoc] at heq
          obtain ⟨-, hend⟩ := ha item item' hc hsep heq
          exact absurd (List.cons.inj hend).1 hcomma
  | more item _ ih =>
      obtain ⟨ha, hrest⟩ := List.forall_mem_cons.mp hitems
      simp only [String.toList_append, List.append_assoc] at heq
      cases h' with
      | none blank' => exact absurd heq.symm (hstart blank' item)
      | one item' =>
          obtain ⟨-, hend⟩ := ha item item' hsep hc heq
          exact absurd (List.cons.inj hend).1.symm hcomma
      | more item' items' =>
          simp only [String.toList_append, List.append_assoc] at heq
          obtain ⟨rfl, hend⟩ := ha item item' hsep hsep heq
          obtain ⟨hsame, rfl⟩ := ih hrest items' (List.cons.inj hend).2
          exact ⟨by rw [hsame], rfl⟩

/-! ### One value a text -/

theorem delimited_scalar {v : JsonValue} (harr : v.kind ≠ .arr) (hobj : v.kind ≠ .obj) :
    Delimited v := by
  intro v' s s' t t' h h' ht ht' heq
  have hkind := h.kind_eq h' heq
  cases h with
  | null =>
      cases h' with
      | null => exact ⟨rfl, List.append_cancel_left heq⟩
      | _ => cases hkind
  | true =>
      cases h' with
      | true => exact ⟨rfl, List.append_cancel_left heq⟩
      | _ => cases hkind
  | false =>
      cases h' with
      | false => exact ⟨rfl, List.append_cancel_left heq⟩
      | _ => cases hkind
  | num n =>
      -- a numeral goes on as long as it can, so what follows must not continue it
      cases h' with
      | num n' =>
          obtain ⟨hnum, rfl⟩ := append_split InNumeral (fun c => inNumeral_of_mem_toString)
            (fun c => inNumeral_of_mem_toString) ht ht' heq
          exact ⟨congrArg JsonValue.num (Int.repr_injective (String.toList_inj.mp hnum)), rfl⟩
      | _ => cases hkind
  | str chars =>
      cases h' with
      | str chars' =>
          simp only [String.toList_append, List.append_assoc] at heq
          obtain ⟨hs, rfl⟩ := chars.split chars' (List.append_cancel_left heq)
          exact ⟨congrArg JsonValue.str (String.toList_inj.mp hs), rfl⟩
      | _ => cases hkind
  | arr _ => exact absurd rfl harr
  | obj _ => exact absurd rfl hobj

theorem delimited_arr {items : List JsonValue} (hitems : ∀ v ∈ items, Delimited v) :
    Delimited (.arr items) := by
  intro v' s s' t t' h h' ht ht' heq
  have hkind := h.kind_eq h' heq
  cases h with
  | arr inside =>
      cases h' with
      | arr inside' =>
          simp only [String.toList_append, List.append_assoc] at heq
          obtain ⟨rfl, rfl⟩ :=
            (separated_items inside).split bracket_closer (by decide)
              (fun hw item => item.not_closed hw bracket_closer)
              (fun v hv => Delimited.jsonText (hitems v hv)) (separated_items inside')
              (List.append_cancel_left heq)
          exact ⟨rfl, rfl⟩
      | _ => cases hkind

theorem delimited_obj {members : List (String × JsonValue)}
    (hmembers : ∀ m ∈ members, Delimited m.2) : Delimited (.obj members) := by
  intro v' s s' t t' h h' ht ht' heq
  have hkind := h.kind_eq h' heq
  cases h with
  | obj inside =>
      cases h' with
      | obj inside' =>
          simp only [String.toList_append, List.append_assoc] at heq
          obtain ⟨rfl, rfl⟩ :=
            (separated_members inside).split brace_closer (by decide)
              (fun hw member => member.not_closed hw brace_closer)
              (fun m hm => Delimited.memberText (hmembers m hm)) (separated_members inside')
              (List.append_cancel_left heq)
          exact ⟨rfl, rfl⟩
      | _ => cases hkind

mutual

theorem delimited : (v : JsonValue) → Delimited v
  | .null => delimited_scalar (by decide) (by decide)
  | .bool true => delimited_scalar (by decide) (by decide)
  | .bool false => delimited_scalar (by decide) (by decide)
  | .num _ => delimited_scalar JsonKind.noConfusion JsonKind.noConfusion
  | .str _ => delimited_scalar JsonKind.noConfusion JsonKind.noConfusion
  | .arr items => delimited_arr (delimited_items items)
  | .obj members => delimited_obj (delimited_members members)

theorem delimited_items : (items : List JsonValue) → ∀ v ∈ items, Delimited v
  | [] => List.forall_mem_nil _
  | v :: rest => List.forall_mem_cons.mpr ⟨delimited v, delimited_items rest⟩

theorem delimited_members : (members : List (String × JsonValue)) → ∀ m ∈ members, Delimited m.2
  | [] => List.forall_mem_nil _
  | (_, v) :: rest => List.forall_mem_cons.mpr ⟨delimited v, delimited_members rest⟩

end

/-- A text is that of one value. -/
theorem jsonText_unique {v v' : JsonValue} {s : String} (h : JsonText v s) (h' : JsonText v' s) :
    v = v' :=
  (Delimited.jsonText (delimited v) h h' closed_nil closed_nil rfl).1

end Lib
