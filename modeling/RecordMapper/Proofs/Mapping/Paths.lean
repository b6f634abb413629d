import RecordMapper.Engine.Config
import RecordMapper.Proofs.Mapping.RoundTrip
import RecordMapper.Proofs.Mapping.Search

/-!
Paths of field names. A path that leads from a type through nested fields to a value field has a
column path, of the columns of its embedded fields and of the value field, and following that in the
record of an entity finds the value that the entity left there.
-/

namespace RecordMapper

namespace Record

/-- The entry of the whole path wins; otherwise the path is cut at the first separator, and what is
behind it is looked for in the child record that is named before it. -/
theorem findPath?_eq {sep : String} (some_sep : sep ≠ "") (r : Record) (path : String) :
    r.findPath? sep path = (r.find? path).or ((Text.cutOnce? sep path).bind fun parts =>
      ((r.find? parts.1).bind Value.asRecord?).bind (·.findPath? sep parts.2)) := by
  rw [findPath?, findAt, String.ofList_toList, ← find?]
  cases r.find? path with
  | some v => rfl
  | none =>
    simp only [Text.toList_ne_nil some_sep, dite_false, Option.none_or, Text.cutOnce?]
    split
    next uncut =>
      rw [uncut]
      rfl
    next head tail cut =>
      simp only [cut, Option.map_some, Option.bind_some, findPath?, String.toList_ofList, find?]
      cases lookup (String.ofList head) r.entries with
      | none => rfl
      | some v => cases v <;> rfl

theorem findPath?_of_clear {sep path : String} (some_sep : sep ≠ "") (clear : Text.Clear sep path)
    (r : Record) : r.findPath? sep path = r.find? path := by
  have uncut : Text.cutOnce? sep path = none :=
    Text.cutOnce?_eq_none_iff.mpr (clear.not_within some_sep)
  rw [findPath?_eq some_sep, uncut, Option.bind_none, Option.or_none]

/-- Where no entry name has characters of the separator, no entry has the name of a longer path. -/
theorem findPath?_append {sep head : String} {r : Record} (some_sep : sep ≠ "")
    (clear : Text.Clear sep head) (names : ∀ n ∈ r.names, Text.Clear sep n) (tail : String) :
    r.findPath? sep (head ++ sep ++ tail) =
      ((r.find? head).bind Value.asRecord?).bind (·.findPath? sep tail) := by
  have whole : r.find? (head ++ sep ++ tail) = none := by
    refine find?_eq_none_iff.mpr fun mem => ?_
    exact (names _ mem).ne_append some_sep head tail rfl
  rw [findPath?_eq some_sep, whole, Text.cutOnce?_append clear some_sep, Option.none_or,
    Option.bind_some]

end Record

namespace TypeDescriptor

/-- Field names that lead from a type through nested fields to a value field, and the columns of the
embedded fields on the way and of the value field. -/
inductive LeadsTo : TypeDescriptor → List String → List String → Prop
  | value {t : TypeDescriptor} {f : Field} {role : ValueRole} {codec : FieldCodec}
      (mem : f ∈ t.fields) (access : f.access = .value role codec) : LeadsTo t [f.name] [f.column]
  | embedded {t child : TypeDescriptor} {f : Field} {names columns : List String}
      (mem : f ∈ t.fields) (access : f.access = .embedded child)
      (rest : LeadsTo child names columns) : LeadsTo t (f.name :: names) (f.column :: columns)
  | subEntity {t child : TypeDescriptor} {f : Field} {names columns : List String}
      (mem : f ∈ t.fields) (access : f.access = .subEntity child)
      (rest : LeadsTo child names columns) : LeadsTo t (f.name :: names) columns

/-- In the type and its nested types, field names do not repeat, and neither they nor the columns
have characters of the separator. -/
inductive Legible (sep : String) : TypeDescriptor → Prop
  | mk {t : TypeDescriptor} (names : (t.fields.map (·.name)).Nodup)
      (clear : ∀ f ∈ t.fields, Text.Clear sep f.name ∧ Text.Clear sep f.column)
      (nested : ∀ f ∈ t.fields, ∀ child, f.nested? = some child → child.Legible sep) :
      Legible sep t

/-- The value that an entity leaves for the last of some field names, each followed in the entity
that the field before it holds; none where one of them holds no entity or the value is null. -/
def valueAt? : List String → TypeDescriptor → Entity → Option Value
  | [], _, _ => none
  | name :: rest, t, e => do
    let place ← t.fields.findIdx? (·.name == name)
    let f ← t.fields[place]?
    match f.access with
    | .value _ codec =>
      let d ← e.content? place
      (recordValue codec f.converter d).toOption.filter (!·.isNull)
    | .embedded child | .subEntity child => valueAt? rest child (← e.child? place)

section Naming

variable {t child : TypeDescriptor} {sep : String} {f : Field} {names columns : List String}

theorem Legible.of_flat (names : (t.fields.map (·.name)).Nodup)
    (clear : ∀ f ∈ t.fields, Text.Clear sep f.name ∧ Text.Clear sep f.column)
    (flat : ∀ f ∈ t.fields, f.nested? = none) : t.Legible sep := by
  refine .mk names clear fun f hf child nested => ?_
  rw [flat f hf] at nested
  cases nested

theorem Legible.names_nodup (h : t.Legible sep) : (t.fields.map (·.name)).Nodup := by
  cases h with
  | mk names => exact names

theorem Legible.clear (h : t.Legible sep) (hf : f ∈ t.fields) :
    Text.Clear sep f.name ∧ Text.Clear sep f.column := by
  cases h with
  | mk _ clear => exact clear f hf

theorem Legible.nested (h : t.Legible sep) (hf : f ∈ t.fields) (nested : f.nested? = some child) :
    child.Legible sep := by
  cases h with
  | mk _ _ inner => exact inner f hf child nested

theorem Legible.clear_of_hasColumn {c : String} (h : t.Legible sep) (column : t.HasColumn c) :
    Text.Clear sep c := by
  induction column with
  | own mem => exact (h.clear mem).2
  | nested mem nested _ ih => exact ih (h.nested mem nested)

theorem Legible.clear_of_mem_flatColumns {c : String} (h : t.Legible sep)
    (column : c ∈ t.flatColumns) : Text.Clear sep c := by
  refine h.clear_of_hasColumn (hasColumn_iff.mpr (.inl ?_))
  exact t.levelNames_perm.subset (List.mem_append_left _ column)

theorem Legible.field?_eq (h : t.Legible sep) (hf : f ∈ t.fields) : t.field? f.name = some f :=
  field?_eq_of_nodup h.names_nodup hf

theorem LeadsTo.exists_cons (leads : t.LeadsTo names columns) :
    (∃ name rest, names = name :: rest) ∧ ∃ column rest, columns = column :: rest := by
  induction leads with
  | value => exact ⟨⟨_, _, rfl⟩, _, _, rfl⟩
  | embedded => exact ⟨⟨_, _, rfl⟩, _, _, rfl⟩
  | subEntity _ _ _ ih => exact ⟨⟨_, _, rfl⟩, ih.2⟩

theorem columnPath_append {tail : String} (some_sep : sep ≠ "") (legible : t.Legible sep)
    (hf : f ∈ t.fields) : t.columnPath sep (f.name ++ sep ++ tail) =
      columnPathInAccess sep f.column tail f.access := by
  have cut := Text.cutOnce?_append (legible.clear hf).1 some_sep tail
  have some_sep : sep.isEmpty = false := String.isEmpty_eq_false_iff.mpr some_sep
  cases t with
  | mk identity key record instance_ fs =>
    have found : fs.find? (·.name == f.name) = some f := legible.field?_eq hf
    simp [columnPath, some_sep, cut, columnPathOf_eq, found]

theorem columnPath_leadsTo (some_sep : sep ≠ "") (legible : t.Legible sep)
    (leads : t.LeadsTo names columns) :
    t.columnPath sep (sep.intercalate names) = some (sep.intercalate columns) := by
  induction leads with
  | value mem access =>
    rw [String.intercalate_singleton, String.intercalate_singleton]
    exact columnPath_of_field? ((legible.clear mem).1.not_within some_sep) (legible.field?_eq mem)
  | @embedded t child f names columns mem access rest ih =>
    have inner := ih (legible.nested mem (f.nested?_of_embedded access))
    obtain ⟨⟨name, others, rfl⟩, column, behind, rfl⟩ := rest.exists_cons
    rw [String.intercalate_cons_cons, String.intercalate_cons_cons,
      columnPath_append some_sep legible mem, access, columnPathInAccess, inner]
    rfl
  | @subEntity t child f names columns mem access rest ih =>
    have inner := ih (legible.nested mem (f.nested?_of_subEntity access))
    obtain ⟨⟨name, others, rfl⟩, -⟩ := rest.exists_cons
    rw [String.intercalate_cons_cons, columnPath_append some_sep legible mem, access,
      columnPathInAccess, inner]

end Naming

theorem mem_flatColumns {t : TypeDescriptor} {f : Field} {c : String} (hf : f ∈ t.fields)
    (column : c ∈ flatColumnsOfAccess f.column f.access) : c ∈ t.flatColumns := by
  rw [flatColumns_eq_flatMap]
  exact List.mem_flatMap.mpr ⟨f, hf, column⟩

section Searching

variable {t child : TypeDescriptor} {sep : String} {f : Field} {e : Entity} {place : Nat}

theorem valueAt?_value {role : ValueRole} {codec : FieldCodec} {rest : List String}
    (first : t.fields.findIdx? (·.name == f.name) = some place) (hf : t.fields[place]? = some f)
    (access : f.access = .value role codec) :
    valueAt? (f.name :: rest) t e = (e.content? place).bind fun d =>
      (recordValue codec f.converter d).toOption.filter (!·.isNull) := by
  simp [valueAt?, first, hf, access]

theorem valueAt?_nested {rest : List String}
    (first : t.fields.findIdx? (·.name == f.name) = some place) (hf : t.fields[place]? = some f)
    (nested : f.nested? = some child) :
    valueAt? (f.name :: rest) t e = (e.child? place).bind (valueAt? rest child) := by
  rcases f.access_of_nested? nested with access | access
  · simp [valueAt?, first, hf, access]
  · simp [valueAt?, first, hf, access]

/-- What a record that holds the entries of a level, and perhaps others, has at the end of a column
path, whether or not there is an entity at that level. -/
theorem findPath?_leadsTo {names columns : List String} {o : Option Entity}
    {es : List (String × Value)} {r : Record} (some_sep : sep ≠ "") (formed : t.Formed)
    (legible : t.Legible sep) (leads : t.LeadsTo names columns) (left : t.Leaves o es)
    (clear : ∀ n ∈ r.names, Text.Clear sep n)
    (agree : ∀ c ∈ t.flatColumns, r.find? c = lookup c es) :
    r.findPath? sep (sep.intercalate columns) = o.bind (valueAt? names t) := by
  induction leads generalizing o es r with
  | @value t f role codec mem access =>
    have flat : f.column ∈ flatColumnsOfAccess f.column f.access := by
      simp [access, flatColumnsOfAccess]
    rw [String.intercalate_singleton, Record.findPath?_of_clear some_sep (legible.clear mem).2,
      agree _ (mem_flatColumns mem flat)]
    cases o with
    | none =>
      rw [show es = [] from left]
      rfl
    | some e =>
      obtain ⟨place, first, hf⟩ := exists_place_of_field? (legible.field?_eq mem)
      obtain ⟨own, hown, -⟩ := written_of_getElem? left hf
      rw [formed.lookup_written left hf hown (column_mem_columnsOf f), Option.bind_some,
        valueAt?_value first hf access]
      rw [access] at hown
      obtain ⟨d, v, content, value, rfl⟩ := of_writtenAccess_value hown
      rw [content, Option.bind_some, value]
      cases null : v.isNull with
      | true => simp [lookup, Except.toOption, Option.filter, null]
      | false => simp [lookup, Except.toOption, Option.filter, null]
  | @embedded t child f names columns mem access rest ih =>
    have nested := f.nested?_of_embedded access
    have flat : f.column ∈ flatColumnsOfAccess f.column f.access := by
      simp [access, flatColumnsOfAccess]
    obtain ⟨-, column, behind, rfl⟩ := rest.exists_cons
    rw [String.intercalate_cons_cons,
      Record.findPath?_append some_sep (legible.clear mem).2 clear,
      agree _ (mem_flatColumns mem flat)]
    cases o with
    | none =>
      rw [show es = [] from left]
      rfl
    | some e =>
      obtain ⟨place, first, hf⟩ := exists_place_of_field? (legible.field?_eq mem)
      obtain ⟨own, hown, -⟩ := written_of_getElem? left hf
      rw [formed.lookup_written left hf hown (column_mem_columnsOf f), Option.bind_some,
        valueAt?_nested first hf nested]
      rw [access] at hown
      have found := of_writtenAccess_embedded hown
      cases held : e.child? place with
      | none =>
        rw [held] at found
        rw [show own = [] from found]
        rfl
      | some c =>
        rw [held] at found
        obtain ⟨inner, entries, rfl⟩ := found
        have inner_legible := legible.nested mem nested
        have inner_clear : ∀ n ∈ (Record.mk f.column inner).names, Text.Clear sep n := fun n hn =>
          inner_legible.clear_of_mem_flatColumns (written_names_subset entries hn)
        have inside := ih (o := some c) (r := ⟨f.column, inner⟩) (formed.nested mem nested)
          inner_legible entries inner_clear fun _ _ => rfl
        simpa [lookup, Value.asRecord?] using inside
  | @subEntity t child f names columns mem access rest ih =>
    have nested := f.nested?_of_subEntity access
    have flat : flatColumnsOfAccess f.column f.access = child.flatColumns := by
      simp [access, flatColumnsOfAccess]
    have inner_formed := formed.nested mem nested
    have inner_legible := legible.nested mem nested
    cases o with
    | none =>
      refine ih (o := none) inner_formed inner_legible left clear fun c hc => ?_
      exact agree c (mem_flatColumns mem (flat ▸ hc))
    | some e =>
      obtain ⟨place, first, hf⟩ := exists_place_of_field? (legible.field?_eq mem)
      obtain ⟨own, hown, -⟩ := written_of_getElem? left hf
      rw [Option.bind_some, valueAt?_nested first hf nested]
      -- The sub-entity shares the record of its owner, where its columns hold what it left.
      have inner_left : child.Leaves (e.child? place) own :=
        of_writtenAccess_subEntity (access ▸ hown)
      refine ih inner_formed inner_legible inner_left clear fun c hc => ?_
      rw [← flat] at hc
      rw [agree c (mem_flatColumns mem hc), formed.lookup_written left hf hown
        (flatColumnsOfAccess_subset_columnsOf f hc)]

end Searching

end TypeDescriptor

/-- The empty separator, at which no path can be cut, is never that of the process. -/
theorem Config.setSeparator_ne_empty {σ : Type} {c : Config σ} {asked sep : String}
    (accepted : c.setSeparator asked = .ok sep) : sep ≠ "" := by
  rw [setSeparator] at accepted
  obtain ⟨-, -, accepted⟩ := bind_eq_ok_iff.mp accepted
  by_cases empty : asked.isEmpty = true
  · rw [if_pos empty] at accepted
    cases accepted
  · rw [if_neg empty] at accepted
    cases accepted
    exact fun none => empty (String.isEmpty_iff.mpr none)

/-- The column path of a path of field names finds, in the record of an entity, the value that the
entity has at the end of the path, and nothing where it has none. -/
theorem Registry.describe_findPath?_columnPath {s : Schema} {registry : Registry} {type : TypeKey}
    {t : TypeDescriptor} (reachable : Registry.Reachable s registry)
    (described : (Registry.describe s type registry).1 = .ok t) {sep : String} (some_sep : sep ≠ "")
    (legible : t.Legible sep) {names columns : List String} (leads : t.LeadsTo names columns) :
    t.columnPath sep (sep.intercalate names) = some (sep.intercalate columns) ∧
      ∀ e r, t.toRecord e = .ok r →
        r.findPath? sep (sep.intercalate columns) = TypeDescriptor.valueAt? names t e := by
  refine ⟨TypeDescriptor.columnPath_leadsTo some_sep legible leads, fun e r written => ?_⟩
  obtain ⟨-, formed⟩ := reachable.formed described
  rw [formed.toRecord_eq] at written
  obtain ⟨es, entries, rfl⟩ := map_eq_ok_iff.mp written
  have clear : ∀ n ∈ (Record.mk t.name es).names, Text.Clear sep n := fun n hn =>
    legible.clear_of_mem_flatColumns (TypeDescriptor.written_names_subset entries hn)
  exact TypeDescriptor.findPath?_leadsTo (o := some e) some_sep formed legible leads entries clear
    fun _ _ => rfl

theorem legible_branched : (branchedType "leaf").Legible "::" := by
  refine .mk (by decide) (by decide) fun f hf child nested => ?_
  obtain rfl | rfl := List.mem_pair.mp hf
  · cases nested
    exact .of_flat (by decide) (by decide)
      (by simp [FieldDescriptor.nested?, TypeDescriptor.fields])
  · cases nested
    refine .mk (by decide) (by decide) fun f hf child nested => ?_
    obtain rfl := List.mem_singleton.mp hf
    cases nested
    exact .of_flat (by decide) (by decide)
      (by simp [FieldDescriptor.nested?, TypeDescriptor.fields])

theorem describe_findPath?_branched :
    (Registry.describe (branchedSchema "leaf") ⟨"", "Owner"⟩ {}).1 = .ok (branchedType "leaf") ∧
      (branchedType "leaf").Legible "::" ∧
      (branchedType "leaf").LeadsTo ["place", "mark"] ["place", "mark"] ∧
      (branchedType "leaf").columnPath "::" "place::mark" = some "place::mark" ∧
      ∃ r, (branchedType "leaf").toRecord (branchedOwner "m" "n") = .ok r ∧
        r.findPath? "::" "place::mark" = some (.string "m") := by
  have separates : (({} : Config Unit).setSeparator "::") = .ok "::" := rfl
  have described : (Registry.describe (branchedSchema "leaf") ⟨"", "Owner"⟩ {}).1 =
    .ok (branchedType "leaf") := rfl
  let place : TypeDescriptor.Field := (branchedType "leaf").fields[0]
  let point : TypeDescriptor := place.nested?.get rfl
  have leads : (branchedType "leaf").LeadsTo ["place", "mark"] ["place", "mark"] :=
    .embedded (f := place) List.mem_cons_self rfl
      (.value (t := point) (f := point.fields[0]) List.mem_cons_self rfl)
  have path := Registry.describe_findPath?_columnPath .empty described
    (Config.setSeparator_ne_empty separates) legible_branched leads
  have written : (branchedType "leaf").toRecord (branchedOwner "m" "n") = .ok
    ⟨"Owner", [("place", .record "place" [("mark", .string "m")]), ("note", .string "n")]⟩ := rfl
  exact ⟨described, legible_branched, leads, path.1, _, written, path.2 _ _ written⟩

end RecordMapper
