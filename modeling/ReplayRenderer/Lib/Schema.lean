import ReplayRenderer.Lib.JsonText

/-!
JSON Schema, as far as the schema of a record goes. A keyword that is about
another kind of value accepts the one at hand, and a schema object is all of
its keywords. A record is serialised without the fields it lacks; with one
property for each field, in their order, it has no other members.
-/

namespace Lib

/-! ### Patterns -/

/-- An anchored pattern: a literal, and then characters of one class, at least
and at most so many. -/
structure Pattern where
  literal : String
  ranges : List (Char × Char)
  least : Nat
  most : Option Nat

def Pattern.InClass (p : Pattern) (c : Char) : Prop := ∃ r ∈ p.ranges, r.1 ≤ c ∧ c ≤ r.2

def Pattern.Matches (p : Pattern) (s : String) : Prop :=
  ∃ t : String, s = p.literal ++ t ∧ (∀ c ∈ t.toList, p.InClass c) ∧ p.least ≤ t.length ∧
    ∀ most ∈ p.most, t.length ≤ most

/-! ### Schemas -/

inductive JsonType where
  | string
  | integer
  | boolean
  | array
  | object
  deriving DecidableEq

def JsonType.Has : JsonType → JsonValue → Prop
  | .string, .str _ => True
  | .integer, .num _ => True
  | .boolean, .bool _ => True
  | .array, .arr _ => True
  | .object, .obj _ => True
  | _, _ => False

inductive Schema where
  | type (t : JsonType)
  | const (v : JsonValue)
  | enum (vs : List JsonValue)
  | minLength (n : Nat)
  | minimum (n : Int)
  | pattern (p : Pattern)
  | items (s : Schema)
  | required (names : List String)
  /-- The members of these names, and whether there may be others. -/
  | properties (props : List (String × Schema)) (additional : Bool)
  /-- Also the keywords of a schema object. -/
  | allOf (ss : List Schema)
  | ifThen (cond conseq : Schema)
  | not (s : Schema)

mutual

def Schema.Accepts : Schema → JsonValue → Prop
  | .type t, v => t.Has v
  | .const c, v => v = c
  | .enum cs, v => v ∈ cs
  | .minLength n, v => ∀ s, v = .str s → n ≤ s.length
  | .minimum n, v => ∀ k, v = .num k → n ≤ k
  | .pattern p, v => ∀ s, v = .str s → p.Matches s
  | .items s, v => ∀ l, v = .arr l → ∀ w ∈ l, s.Accepts w
  | .required names, v => ∀ m, v = .obj m → ∀ name ∈ names, name ∈ m.map Prod.fst
  | .properties props additional, v => ∀ m, v = .obj m →
      Schema.AcceptMembers props m ∧ (additional = true ∨ m.map Prod.fst ⊆ props.map Prod.fst)
  | .allOf ss, v => Schema.AcceptAll ss v
  | .ifThen cond conseq, v => cond.Accepts v → conseq.Accepts v
  | .not s, v => ¬s.Accepts v

def Schema.AcceptAll : List Schema → JsonValue → Prop
  | [], _ => True
  | s :: ss, v => s.Accepts v ∧ Schema.AcceptAll ss v

def Schema.AcceptMembers : List (String × Schema) → List (String × JsonValue) → Prop
  | [], _ => True
  | (k, s) :: props, m => (∀ v, (k, v) ∈ m → s.Accepts v) ∧ Schema.AcceptMembers props m

end

section Accepts

variable {v : JsonValue}

theorem accepts_allOf {ss : List Schema} :
    (Schema.allOf ss).Accepts v ↔ ∀ s ∈ ss, s.Accepts v := by
  rw [Schema.Accepts]
  induction ss with
  | nil => simp [Schema.AcceptAll]
  | cons s ss ih => rw [Schema.AcceptAll, ih, List.forall_mem_cons]

theorem accepts_pair {s s' : Schema} :
    (Schema.allOf [s, s']).Accepts v ↔ s.Accepts v ∧ s'.Accepts v := by
  rw [accepts_allOf, List.forall_mem_cons, List.forall_mem_singleton]

theorem accepts_ifThen {cond conseq : Schema} :
    (Schema.ifThen cond conseq).Accepts v ↔ (cond.Accepts v → conseq.Accepts v) := by
  rw [Schema.Accepts]

theorem accepts_not {s : Schema} : (Schema.not s).Accepts v ↔ ¬s.Accepts v := by
  rw [Schema.Accepts]

theorem acceptMembers_iff {props : List (String × Schema)} {m : List (String × JsonValue)} :
    Schema.AcceptMembers props m ↔ ∀ p ∈ props, ∀ v, (p.1, v) ∈ m → p.2.Accepts v := by
  induction props with
  | nil => simp [Schema.AcceptMembers]
  | cons p props ih => rw [Schema.AcceptMembers, ih, List.forall_mem_cons]

end Accepts

/-! ### Records -/

/-- A record as it is serialised: without the fields that it lacks. -/
def JsonValue.record (fields : List (String × Option JsonValue)) : JsonValue :=
  .obj (fields.filterMap fun f => f.2.map fun v => (f.1, v))

section Record

variable {fields : List (String × Option JsonValue)}

theorem mem_record {k : String} {v : JsonValue} :
    (k, v) ∈ fields.filterMap (fun f => f.2.map fun v => (f.1, v)) ↔ (k, some v) ∈ fields := by
  rw [List.mem_filterMap]
  constructor
  · rintro ⟨⟨k', o⟩, hf, hv⟩
    obtain ⟨v', rfl, heq⟩ := Option.map_eq_some_iff.mp hv
    obtain ⟨rfl, rfl⟩ := Prod.mk.inj heq
    exact hf
  · exact fun hf => ⟨_, hf, rfl⟩

theorem accepts_required_record {names : List String} :
    (Schema.required names).Accepts (.record fields) ↔
      ∀ name ∈ names, ∃ v, (name, some v) ∈ fields := by
  rw [Schema.Accepts]
  constructor
  · intro h name hname
    obtain ⟨⟨k, v⟩, hmem, rfl⟩ := List.mem_map.mp (h _ rfl name hname)
    exact ⟨v, mem_record.mp hmem⟩
  · rintro h _ ⟨⟩ name hname
    obtain ⟨v, hv⟩ := h name hname
    exact List.mem_map.mpr ⟨(name, v), mem_record.mpr hv, rfl⟩

theorem accepts_properties_record {props : List (String × Schema)} :
    (Schema.properties props true).Accepts (.record fields) ↔
      ∀ p ∈ props, ∀ v, (p.1, some v) ∈ fields → p.2.Accepts v := by
  rw [Schema.Accepts]
  constructor
  · intro h p hp v hv
    exact acceptMembers_iff.mp (h _ rfl).1 p hp v (mem_record.mpr hv)
  · rintro h _ ⟨⟩
    refine ⟨acceptMembers_iff.mpr fun p hp v hv => ?_, .inl rfl⟩
    exact h p hp v (mem_record.mp hv)

def under (key : String) (members : List (String × JsonValue)) : List JsonValue :=
  members.filterMap fun m => if m.1 = key then some m.2 else none

theorem under_eq_nil {key : String} {members : List (String × JsonValue)}
    (h : ∀ m ∈ members, m.1 ≠ key) : under key members = [] := by
  rw [under, List.filterMap_eq_nil_iff]
  intro m hm
  rw [if_neg (h m hm)]

/-- A record has what its fields say under their names. -/
theorem under_record (hnames : (fields.map Prod.fst).Nodup) {key : String} {o : Option JsonValue}
    (h : (key, o) ∈ fields) :
    under key (fields.filterMap fun f => f.2.map fun v => (f.1, v)) = o.toList := by
  induction fields with
  | nil => cases h
  | cons f rest ih =>
      obtain ⟨hf, hrest⟩ := List.nodup_cons.mp hnames
      have hsplit : under key ((f :: rest).filterMap fun f => f.2.map fun v => (f.1, v)) =
          (if f.1 = key then f.2.toList else []) ++
            under key (rest.filterMap fun f => f.2.map fun v => (f.1, v)) := by
        obtain ⟨k, v⟩ := f
        cases v <;> by_cases hk : k = key <;> simp [under, hk]
      rw [hsplit]
      rcases List.mem_cons.mp h with rfl | h
      · rw [if_pos rfl, under_eq_nil, List.append_nil]
        rintro ⟨k, v⟩ hm rfl
        exact hf (List.mem_map.mpr ⟨_, mem_record.mp hm, rfl⟩)
      · rw [if_neg, List.nil_append, ih hrest h]
        rintro rfl
        exact hf (List.mem_map.mpr ⟨_, h, rfl⟩)

/-- Records of the same names with the same members, in whatever order, have the
same fields. -/
theorem record_inj {fields' : List (String × Option JsonValue)}
    (hkeys : fields.map Prod.fst = fields'.map Prod.fst) (hnames : (fields.map Prod.fst).Nodup)
    (hperm : (fields.filterMap fun f => f.2.map fun v => (f.1, v)).Perm
      (fields'.filterMap fun f => f.2.map fun v => (f.1, v))) : fields = fields' := by
  have hlength : fields.length = fields'.length := by simpa using congrArg List.length hkeys
  refine List.ext_getElem hlength fun i hi hi' => ?_
  have hkey : fields[i].1 = fields'[i].1 := by
    have hget := congrArg (·[i]?) hkeys
    simpa [hi, hi'] using hget
  have hsame : fields[i].2.toList.Perm fields'[i].2.toList := by
    have hunder : under fields[i].1 _ = fields[i].2.toList :=
      under_record hnames (List.getElem_mem hi)
    have hunder' : under fields'[i].1 _ = fields'[i].2.toList :=
      under_record (hkeys ▸ hnames) (List.getElem_mem hi')
    rw [← hunder, ← hunder', hkey]
    exact hperm.filterMap _
  refine Prod.ext hkey ?_
  cases hvalue : fields[i].2 with
  | none => cases hvalue' : fields'[i].2 <;> simp_all
  | some v => cases hvalue' : fields'[i].2 <;> simp_all

def Describes (p : String × Schema) (f : String × Option JsonValue) : Prop :=
  p.1 = f.1 ∧ ∀ v ∈ f.2, p.2.Accepts v

theorem describes_some {k : String} {s : Schema} {v : JsonValue} (h : s.Accepts v) :
    Describes (k, s) (k, some v) := by
  refine ⟨rfl, ?_⟩
  rintro _ ⟨⟩
  exact h

theorem describes_map {α : Type} {k : String} {s : Schema} {f : α → JsonValue} {o : Option α}
    (h : ∀ a ∈ o, s.Accepts (f a)) : Describes (k, s) (k, o.map f) := by
  refine ⟨rfl, fun v hv => ?_⟩
  obtain ⟨a, ha, rfl⟩ := Option.map_eq_some_iff.mp hv
  exact h a ha

theorem keys_of_describes {props : List (String × Schema)}
    (h : List.Forall₂ Describes props fields) : props.map Prod.fst = fields.map Prod.fst := by
  induction h with
  | nil => rfl
  | cons hpf _ ih => rw [List.map_cons, List.map_cons, hpf.1, ih]

theorem exists_describes {props : List (String × Schema)}
    (h : List.Forall₂ Describes props fields) {f : String × Option JsonValue} (hf : f ∈ fields) :
    ∃ p ∈ props, Describes p f := by
  induction h with
  | nil => cases hf
  | cons hpf _ ih =>
      rcases List.mem_cons.mp hf with rfl | hf
      · exact ⟨_, List.mem_cons_self .., hpf⟩
      · obtain ⟨p, hp, hpf⟩ := ih hf
        exact ⟨p, List.mem_cons_of_mem _ hp, hpf⟩

/-- A record whose fields are described one by one has the properties, and no
others. -/
theorem accepts_record {props : List (String × Schema)} {additional : Bool}
    (hnodup : (props.map Prod.fst).Nodup) (h : List.Forall₂ Describes props fields) :
    (Schema.properties props additional).Accepts (.record fields) := by
  rw [Schema.Accepts]
  rintro _ ⟨⟩
  constructor
  · rw [acceptMembers_iff]
    intro p hp v hv
    obtain ⟨p', hp', hkey, haccepts⟩ := exists_describes h (mem_record.mp hv)
    -- the names are all different, so the property is the one of this field
    obtain rfl : p' = p := List.inj_on_of_nodup_map hnodup hp' hp hkey
    exact haccepts v rfl
  · right
    intro k hk
    obtain ⟨⟨k, v⟩, hkv, rfl⟩ := List.mem_map.mp hk
    rw [keys_of_describes h]
    exact List.mem_map_of_mem (mem_record.mp hkv)

end Record

end Lib
