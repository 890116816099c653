import SwapCompiler.Json.Record
import Mathlib.Data.List.Nodup

/-!
# What a record is given

Which values stand for a record, stated without the functions that read them.

* `Gives` says what a JSON value gives for each field name, whether it is an object or an array;
  `exists_record?_iff` says that exactly this is read.
* `RequiredAs`, `OptionalAs` and `FlagAs` are the three rules for fields that may be absent.
-/

namespace SwapCompiler.Json

variable {names : List String} {given : String → Option Json} {name : String} {value : Json}
  {record result : Record} {members : List (Option String × Json)}

/-- A JSON value gives these values for the fields with these names.  An object has each of the
names at most once, in any order and among other names, whose values are sound; an array has the
values of the leading names. -/
inductive Gives (names : List String) (given : String → Option Json) : Json → Prop
  | members {named : List (String × Json)}
      (hothers : ∀ member ∈ named, member.1 ∉ names → member.2.sound = true)
      (honce : ((named.filter (·.1 ∈ names)).map Prod.fst).Nodup)
      (hgiven : ∀ name value, given name = some value ↔ name ∈ names ∧ (name, value) ∈ named) :
      Gives names given (ofMembers named)
  | items {items : List Json} (hlength : items.length ≤ names.length)
      (hgiven : ∀ name value, given name = some value ↔ (name, value) ∈ names.zip items) :
      Gives names given (.array items)

/-! ## Looking fields up -/

/-- If no name is repeated, a name stands for each of its values. -/
theorem lookup_eq_some_iff_mem (hrecord : (record.map Prod.fst).Nodup) :
    record.lookup name = some value ↔ (name, value) ∈ record := by
  induction record with
  | nil => simp
  | cons field rest ih =>
      obtain ⟨key, content⟩ := field
      rw [List.map_cons, List.nodup_cons] at hrecord
      rw [List.lookup_cons, List.mem_cons]
      by_cases hname : name = key
      · subst hname
        have hnone : (name, value) ∉ rest := fun hmem => hrecord.1 (List.mem_map.2 ⟨_, hmem, rfl⟩)
        simp [hnone, eq_comm]
      · have hbeq : (name == key) = false := beq_eq_false_iff_ne.2 hname
        simp [hbeq, hname, ih hrecord.2]

theorem lookup_isSome_iff : (record.lookup name).isSome = true ↔ name ∈ record.map Prod.fst := by
  rw [List.lookup_isSome_iff, List.mem_map]
  exact ⟨fun ⟨field, hfield, hname⟩ => ⟨field, hfield, (beq_iff_eq.1 hname).symm⟩,
    fun ⟨field, hfield, hname⟩ => ⟨field, hfield, beq_iff_eq.2 hname.symm⟩⟩

theorem nodup_map_fst_zip {α β : Type} {first : List α} (h : first.Nodup) (second : List β) :
    ((first.zip second).map Prod.fst).Nodup := by
  induction first generalizing second with
  | nil => exact .nil
  | cons a rest ih =>
      rw [List.nodup_cons] at h
      cases second with
      | nil => exact .nil
      | cons b others =>
          rw [List.zip_cons_cons, List.map_cons, List.nodup_cons]
          refine ⟨fun hmem => h.1 ?_, ih h.2 others⟩
          obtain ⟨⟨a', b'⟩, hpair, rfl⟩ := List.mem_map.1 hmem
          exact (List.of_mem_zip hpair).1

/-! ## Reading records -/

/-- A member is taken in if it has a name, and either an unknown one and a sound value, which is
passed over, or a known one that has not come before. -/
theorem addMember_eq_some_iff {key : Option String} {next : Record} :
    addMember names record (key, value) = some next ↔
      ∃ name, key = some name ∧
        (name ∉ names ∧ value.sound = true ∧ next = record ∨
          name ∈ names ∧ name ∉ record.map Prod.fst ∧ next = (name, value) :: record) := by
  cases key with
  | none => simp [addMember]
  | some name =>
      have hlookup : (record.lookup name).isSome = true ↔ name ∈ record.map Prod.fst :=
        lookup_isSome_iff
      generalize record.map Prod.fst = seen at hlookup ⊢
      by_cases hknown : name ∈ names
      · by_cases hseen : name ∈ seen
        · simp [addMember, hknown, hlookup, hseen]
        · simpa [addMember, hknown, hlookup, hseen] using eq_comm
      · cases hsound : value.sound with
        | false => simp [addMember, hknown, hsound]
        | true => simpa [addMember, hknown, hsound] using eq_comm

/-- The members of an object are taken in one after the other; the known ones are kept, last
first, and none of them twice. -/
theorem foldlM_addMember_eq_some_iff (hrecord : (record.map Prod.fst).Nodup) :
    members.foldlM (addMember names) record = some result ↔
      ∃ named : List (String × Json),
        members = named.map (fun member => (some member.1, member.2)) ∧
        (∀ member ∈ named, member.1 ∉ names → member.2.sound = true) ∧
        result = (named.filter (·.1 ∈ names)).reverse ++ record ∧
        (result.map Prod.fst).Nodup := by
  induction members generalizing record with
  | nil =>
      constructor
      · intro h
        obtain rfl := Option.some.inj h
        exact ⟨[], rfl, nofun, rfl, hrecord⟩
      · rintro ⟨named, hnamed, -, rfl, -⟩
        obtain rfl := List.map_eq_nil_iff.1 hnamed.symm
        rfl
  | cons member rest ih =>
      obtain ⟨key, value⟩ := member
      rw [List.foldlM_cons, Option.bind_eq_bind, Option.bind_eq_some_iff]
      constructor
      · rintro ⟨next, hnext, hrest⟩
        obtain ⟨name, rfl, ⟨hunknown, hsound, rfl⟩ | ⟨hknown, hnew, rfl⟩⟩ :=
          addMember_eq_some_iff.1 hnext
        · obtain ⟨named, rfl, hothers, hresult, hnodup⟩ := (ih hrecord).1 hrest
          refine ⟨(name, value) :: named, rfl, ?_, ?_, hnodup⟩
          · exact List.forall_mem_cons.2 ⟨fun _ => hsound, hothers⟩
          · simp [hresult, hunknown]
        · have hnext : (((name, value) :: record).map Prod.fst).Nodup :=
            List.nodup_cons.2 ⟨hnew, hrecord⟩
          obtain ⟨named, rfl, hothers, hresult, hnodup⟩ := (ih hnext).1 hrest
          refine ⟨(name, value) :: named, rfl, ?_, ?_, hnodup⟩
          · exact List.forall_mem_cons.2 ⟨fun hunknown => absurd hknown hunknown, hothers⟩
          · simp [hresult, hknown]
      · rintro ⟨named, hnamed, hothers, hresult, hnodup⟩
        obtain ⟨⟨name, value'⟩, named, rfl, hmember, rfl⟩ := List.map_eq_cons_iff.1 hnamed.symm
        obtain ⟨rfl, rfl⟩ := Prod.mk.inj hmember
        obtain ⟨hsound, hothers⟩ := List.forall_mem_cons.1 hothers
        by_cases hknown : name ∈ names
        · have hkept : result =
              (named.filter (·.1 ∈ names)).reverse ++ (name, value') :: record := by
            simp [hresult, hknown]
          have hnext : (((name, value') :: record).map Prod.fst).Nodup := by
            rw [hkept, List.map_append] at hnodup
            exact hnodup.of_append_right
          have hnew := (List.nodup_cons.1 hnext).1
          exact ⟨_, addMember_eq_some_iff.2 ⟨name, rfl, .inr ⟨hknown, hnew, rfl⟩⟩,
            (ih hnext).2 ⟨named, rfl, hothers, hkept, hnodup⟩⟩
        · have hkept : result = (named.filter (·.1 ∈ names)).reverse ++ record := by
            simp [hresult, hknown]
          exact ⟨record, addMember_eq_some_iff.2 ⟨name, rfl, .inl ⟨hknown, hsound hknown, rfl⟩⟩,
            (ih hrecord).2 ⟨named, rfl, hothers, hkept, hnodup⟩⟩

/-- Exactly what a JSON value gives for a list of names is read from it. -/
theorem exists_record?_iff (hnames : names.Nodup) {json : Json} :
    (∃ record, record? names json = some record ∧ ∀ name, record.lookup name = given name) ↔
      Gives names given json := by
  have hnone : (([] : Record).map Prod.fst).Nodup := List.nodup_nil
  constructor
  · rintro ⟨record, hrecord, hlookup⟩
    unfold record? at hrecord
    split at hrecord
    · obtain ⟨named, rfl, hothers, rfl, hnodup⟩ := (foldlM_addMember_eq_some_iff hnone).1 hrecord
      rw [List.append_nil] at hnodup hlookup
      refine .members hothers ?_ fun name value => ?_
      · rwa [List.map_reverse, List.nodup_reverse] at hnodup
      · rw [← hlookup, lookup_eq_some_iff_mem hnodup]
        simp [and_comm]
    · next items =>
        split at hrecord
        · next hlength =>
            obtain rfl := Option.some.inj hrecord
            refine .items hlength fun name value => ?_
            rw [← hlookup, lookup_eq_some_iff_mem (nodup_map_fst_zip hnames items)]
        · exact nomatch hrecord
    · exact nomatch hrecord
  · rintro (⟨hothers, honce, hgiven⟩ | ⟨hlength, hgiven⟩)
    · next named =>
        have hnodup : ((named.filter (·.1 ∈ names)).reverse.map Prod.fst).Nodup := by
          rwa [List.map_reverse, List.nodup_reverse]
        refine ⟨(named.filter (·.1 ∈ names)).reverse, ?_, fun name => Option.ext fun value => ?_⟩
        · refine (foldlM_addMember_eq_some_iff hnone).2 ⟨named, rfl, hothers, ?_, hnodup⟩
          rw [List.append_nil]
        · rw [lookup_eq_some_iff_mem hnodup, hgiven]
          simp [and_comm]
    · next items =>
        refine ⟨names.zip items, if_pos hlength, fun name => Option.ext fun value => ?_⟩
        rw [lookup_eq_some_iff_mem (nodup_map_fst_zip hnames items), hgiven]

/-- What is true of the fields that are read is true of those that are given. -/
theorem exists_record?_and_iff (hnames : names.Nodup) {json : Json}
    {holds : (String → Option Json) → Prop} :
    (∃ record, record? names json = some record ∧ holds fun name => record.lookup name) ↔
      ∃ given, Gives names given json ∧ holds given := by
  constructor
  · rintro ⟨record, hrecord, hholds⟩
    exact ⟨_, (exists_record?_iff hnames).1 ⟨record, hrecord, fun _ => rfl⟩, hholds⟩
  · rintro ⟨given, hgives, hholds⟩
    obtain ⟨record, hrecord, hlookup⟩ := (exists_record?_iff hnames).2 hgives
    rw [← funext hlookup] at hholds
    exact ⟨record, hrecord, hholds⟩

/-- A record that is written with all its fields gives each of them. -/
theorem gives_ofMembers {fields : List (String × Json)} (hnames : names.Nodup)
    (hfields : fields.map Prod.fst = names) :
    Gives names (fun name => fields.lookup name) (ofMembers fields) := by
  subst hfields
  have hknown : ∀ member ∈ fields, member.1 ∈ fields.map Prod.fst := fun member hmember =>
    List.mem_map.2 ⟨member, hmember, rfl⟩
  have hall : fields.filter (·.1 ∈ fields.map Prod.fst) = fields :=
    List.filter_eq_self.2 fun member hmember => decide_eq_true (hknown member hmember)
  refine .members (fun member hmember hunknown => absurd (hknown member hmember) hunknown) ?_
    fun name value => ?_
  · rwa [hall]
  · rw [lookup_eq_some_iff_mem hnames]
    exact ⟨fun hmem => ⟨hknown _ hmem, hmem⟩, fun hmem => hmem.2⟩

/-- A record is sound if its values are. -/
theorem sound_ofMembers {fields : List (String × Json)}
    (h : ∀ field ∈ fields, field.2.sound = true) : (ofMembers fields).sound = true := by
  change soundMembers _ = true
  induction fields with
  | nil => rfl
  | cons field rest ih =>
      obtain ⟨hfield, hrest⟩ := List.forall_mem_cons.1 h
      exact Bool.and_eq_true_iff.2 ⟨hfield, ih hrest⟩

/-! ## Fields -/

section Fields

variable {α : Type} {read : Json → Option α} {spells : α → Json → Prop}

/-- A field that must be given, and spells its value. -/
def RequiredAs (spells : α → Json → Prop) (value : α) (given : Option Json) : Prop :=
  ∃ json, given = some json ∧ spells value json

/-- A field that spells its value, or is absent or null if there is none. -/
inductive OptionalAs (spells : α → Json → Prop) : Option α → Option Json → Prop
  | absent : OptionalAs spells none none
  | null : OptionalAs spells none (some .null)
  | given {value : α} {json : Json} (h : spells value json) :
      OptionalAs spells (some value) (some json)

/-- A truth value, which is false where it is absent. -/
inductive FlagAs : Bool → Option Json → Prop
  | absent : FlagAs false none
  | given {value : Bool} : FlagAs value (some (.bool value))

theorem required?_eq_some_iff {value : α}
    (hread : ∀ value json, read json = some value ↔ spells value json) :
    record.required? name read = some value ↔ RequiredAs spells value (record.lookup name) := by
  rw [Record.required?, Option.bind_eq_some_iff]
  simp only [hread]
  rfl

/-- What null spells is never asked for, so that an optional field may be null. -/
theorem optional?_eq_some_iff {value : Option α}
    (hread : ∀ value json, read json = some value ↔ spells value json)
    (hnull : ∀ value, ¬ spells value .null) :
    record.optional? name read = some value ↔ OptionalAs spells value (record.lookup name) := by
  unfold Record.optional?
  generalize record.lookup name = given
  split
  · constructor
    · intro h
      obtain rfl := Option.some.inj h
      exact .absent
    · rintro ⟨⟩
      rfl
  · constructor
    · intro h
      obtain rfl := Option.some.inj h
      exact .null
    · intro h
      cases h with
      | null => rfl
      | given h => exact absurd h (hnull _)
  · next json hne =>
      rw [Option.map_eq_some_iff]
      constructor
      · rintro ⟨found, hfound, rfl⟩
        exact .given ((hread _ _).1 hfound)
      · intro h
        cases h with
        | null => exact absurd rfl hne
        | given h => exact ⟨_, (hread _ _).2 h, rfl⟩

theorem flag?_eq_some_iff {value : Bool} :
    record.flag? name = some value ↔ FlagAs value (record.lookup name) := by
  unfold Record.flag?
  generalize record.lookup name = given
  constructor
  · intro h
    split at h
    · obtain rfl := Option.some.inj h
      exact .absent
    · next json =>
        cases json with
        | bool content =>
            obtain rfl := Option.some.inj h
            exact .given
        | _ => exact nomatch h
  · rintro (_ | _) <;> rfl

end Fields

end SwapCompiler.Json
