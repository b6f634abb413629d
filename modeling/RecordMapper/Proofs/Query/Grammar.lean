import RecordMapper.Proofs.Query.Parsing

/-!
Which method names can be read. A name is read when it begins with a prefix, has a condition behind
it, and none of its tokens is a suffix without a field; whatever else stands in it, it is read.
-/

namespace RecordMapper.MethodName

/-- The parts of a text before and behind the first ordering keyword that stands in front of a
capital; the whole text, where there is none. -/
inductive Divides (body : List Char) : List Char → Option (List Char) → Prop
  | whole (none_inside : ∀ front back, body = front ++ "OrderBy".toList ++ back →
      startsUpper back = false) : Divides body body none
  | ordered {condition order : List Char} (split : body = condition ++ "OrderBy".toList ++ order)
      (upper : startsUpper order = true)
      (first : ∀ front back, body = front ++ "OrderBy".toList ++ back → startsUpper back = true →
        condition.length ≤ front.length) : Divides body condition (some order)

section Dividing

variable {body condition condition' : List Char} {order order' : Option (List Char)}

theorem Divides.unique (h : Divides body condition order) (h' : Divides body condition' order') :
    (condition, order) = (condition', order') := by
  cases h with
  | whole none_inside =>
    cases h' with
    | whole => rfl
    | ordered split upper =>
      rw [none_inside _ _ split] at upper
      cases upper
  | ordered split upper first =>
    cases h' with
    | whole none_inside =>
      rw [none_inside _ _ split] at upper
      cases upper
    | ordered split' upper' first' =>
      have same := Nat.le_antisymm (first _ _ split' upper') (first' _ _ split upper)
      rw [List.append_assoc] at split split'
      obtain ⟨rfl, behind⟩ := List.append_inj (split.symm.trans split') same
      rw [List.append_cancel_left behind]

theorem Divides.cons {c : Char} (h : Divides body condition order)
    (elsewhere : afterKeyword? "OrderBy" (c :: body) = none) :
    Divides (c :: body) (c :: condition) order := by
  -- An ordering keyword of the longer text is not at its front, so it is one of the rest.
  have behind (front back : List Char) (split : c :: body = front ++ "OrderBy".toList ++ back)
      (upper : startsUpper back = true) :
      ∃ front', front = c :: front' ∧ body = front' ++ "OrderBy".toList ++ back := by
    cases front with
    | nil =>
      rw [afterKeyword?_eq_some_iff.mpr ⟨split, upper⟩] at elsewhere
      cases elsewhere
    | cons d front' =>
      obtain ⟨rfl, rest⟩ := List.cons.inj split
      exact ⟨front', rfl, rest⟩
  cases h with
  | whole none_inside =>
    refine .whole fun front back split => Bool.eq_false_iff.mpr fun upper => ?_
    obtain ⟨front', -, rest⟩ := behind front back split upper
    rw [none_inside front' back rest] at upper
    cases upper
  | ordered split upper first =>
    refine .ordered (congrArg (c :: ·) split) upper fun front back split' upper' => ?_
    obtain ⟨front', rfl, rest⟩ := behind front back split' upper'
    exact Nat.succ_le_succ (first front' back rest upper')

theorem divides_parts (body : List Char) : Divides body (parts body).1 (parts body).2 := by
  induction body with
  | nil => exact .whole fun front back split => by simp at split
  | cons c cs ih =>
    cases here : afterKeyword? "OrderBy" (c :: cs) with
    | some order =>
      obtain ⟨split, upper⟩ := afterKeyword?_eq_some_iff.mp here
      have found : parts (c :: cs) = ([], some order) := by simp [parts, splitOrder?, here]
      rw [found]
      exact .ordered split upper fun _ _ _ _ => Nat.zero_le _
    | none =>
      have found : parts (c :: cs) = (c :: (parts cs).1, (parts cs).2) := by
        rw [parts, splitOrder?, here, parts]
        cases splitOrder? cs <;> rfl
      rw [found]
      exact ih.cons here

theorem Divides.parts_eq (h : Divides body condition order) : parts body = (condition, order) :=
  (divides_parts body).unique h

end Dividing

theorem startsUpper_of_connectorAt? {keywords : List (String × Connector)} {text rest : List Char}
    {next : Connector} (found : connectorAt? keywords text = some (next, rest)) :
    startsUpper rest = true := by
  obtain ⟨k, -, -, -, upper⟩ := exists_keyword_of_connectorAt? found
  exact upper

theorem ne_nil_of_startsUpper {text : List Char} (upper : startsUpper text = true) : text ≠ [] := by
  rintro rfl
  cases upper

/-- No token is empty, where there is something to split. -/
theorem text_ne_nil_of_mem_tokens {keywords : List (String × Connector)}
    {connector : Option Connector} {read text : List Char} (some_text : read ≠ [] ∨ text ≠ []) :
    ∀ t ∈ tokens keywords connector read text, t.text ≠ [] := by
  fun_induction tokens keywords connector read text with
  | case1 connector read => simpa using some_text
  | case2 connector read c cs next rest found ih =>
    obtain ⟨some_read, connects⟩ := connectorAt?_of_found found
    have later := ih (.inr (ne_nil_of_startsUpper (startsUpper_of_connectorAt? connects)))
    exact List.forall_mem_cons.mpr ⟨by simpa using some_read, later⟩
  | case3 connector read c cs silent ih => exact ih (.inl (List.cons_ne_nil c read))

theorem text_ne_nil_of_mem_tokenize {keywords : List (String × Connector)} {text : List Char}
    (some_text : text ≠ []) : ∀ t ∈ tokenize keywords text, t.text ≠ [] :=
  text_ne_nil_of_mem_tokens (.inr some_text)

/-- The operator suffixes; a token that is one of them names no field. -/
def clauseEndings : List String :=
  ["Between", "LessEqualThan", "GreaterEqualThan", "LessThan", "GreaterThan", "Like"]

def sortEndings : List String := ["Asc", "Desc"]

theorem splitSuffix_fst_eq_nil_iff {token : List Char} (some_token : token ≠ []) :
    (splitSuffix token).1 = [] ↔ token ∈ clauseEndings.map String.toList := by
  constructor
  · intro no_field
    rw [splitSuffix] at no_field
    cases found : suffixes.findSome? fun s => (stripSuffix? s.1.toList token).map (·, s.2) with
    | none =>
      rw [found] at no_field
      exact absurd no_field some_token
    | some split =>
      obtain ⟨s, mem, stripped⟩ := List.exists_of_findSome?_eq_some found
      obtain ⟨front, ends, rfl⟩ := Option.map_eq_some_iff.mp stripped
      rw [found] at no_field
      obtain rfl : front = [] := no_field
      have whole : token = s.1.toList := stripSuffix?_eq_some_iff.mp ends
      have listed : clauseEndings = suffixes.map (·.1) := rfl
      rw [whole, listed, List.map_map]
      exact List.mem_map_of_mem mem
  · intro bare
    simp only [clauseEndings, List.map_cons, List.map_nil, List.mem_cons, List.not_mem_nil,
      or_false] at bare
    rcases bare with rfl | rfl | rfl | rfl | rfl | rfl <;> rfl

theorem splitDirection_fst_eq_nil_iff {token : List Char} (some_token : token ≠ []) :
    (splitDirection token).1 = [] ↔ token ∈ sortEndings.map String.toList := by
  constructor
  · intro no_field
    rw [splitDirection] at no_field
    cases descends : stripSuffix? "Desc".toList token with
    | some front =>
      rw [descends] at no_field
      obtain rfl : front = [] := no_field
      have whole : token = "Desc".toList := stripSuffix?_eq_some_iff.mp descends
      simp [sortEndings, whole]
    | none =>
      rw [descends] at no_field
      cases ascends : stripSuffix? "Asc".toList token with
      | none =>
        rw [ascends] at no_field
        exact absurd no_field some_token
      | some front =>
        rw [ascends] at no_field
        obtain rfl : front = [] := no_field
        have whole : token = "Asc".toList := stripSuffix?_eq_some_iff.mp ascends
        simp [sortEndings, whole]
  · intro bare
    simp only [sortEndings, List.map_cons, List.map_nil, List.mem_cons, List.not_mem_nil,
      or_false] at bare
    rcases bare with rfl | rfl <;> rfl

section Fields

variable {method field : String} {text : List Char} {failure : Failure}

theorem fieldName_ne_empty (named : fieldName method text = .ok field) : field ≠ "" := by
  cases text with
  | nil => cases named
  | cons c cs =>
    cases named
    have some_letter : Text.toLower c ≠ [] := by
      rw [Text.toLower]
      repeat' split
      all_goals simp
    simp [some_letter]

/-- A part of a name is read whenever it leaves something for the field. -/
theorem exists_map_fieldName_iff {α : Type} (method : String) (f : String → α) :
    (∃ a, (fieldName method text).map f = .ok a) ↔ text ≠ [] := by
  cases text with
  | nil => exact ⟨nofun, fun h => absurd rfl h⟩
  | cons c cs => exact ⟨fun _ => List.cons_ne_nil c cs, fun _ => ⟨_, rfl⟩⟩

theorem kind_of_map_fieldName {α : Type} {f : String → α}
    (failed : (fieldName method text).map f = .error failure) : failure.kind = .dynamicQuery := by
  cases text with
  | nil =>
    cases failed
    rfl
  | cons c cs => cases failed

end Fields

/-- The tokens of the ordering part. -/
def sortTokens : Option (List Char) → List Token
  | some order => tokenize orderConnectors order
  | none => []

theorem sortKeys_eq (method : String) (order : Option (List Char)) :
    sortKeys method order = (sortTokens order).mapM (sortKey method) := by
  cases order <;> rfl

/-- The method name is made of a prefix, a condition and perhaps an order, and no token of them is
a suffix alone. -/
structure Grammatical (method : String) (kind : QueryKind) (condition : List Char)
    (order : Option (List Char)) : Prop where
  divided : ∃ body, method.toList = kind.keyword.toList ++ body ∧ Divides body condition order
  some_condition : condition ≠ []
  clauses : ∀ t ∈ tokenize conditionConnectors condition, t.text ∉ clauseEndings.map String.toList
  sorts : ∀ t ∈ sortTokens order, t.text ∉ sortEndings.map String.toList

theorem splitKind?_eq_some_iff {method body : List Char} {kind : QueryKind} :
    splitKind? method = some (kind, body) ↔ method = kind.keyword.toList ++ body := by
  constructor
  · intro found
    obtain ⟨k, -, at_k⟩ := List.exists_of_findSome?_eq_some found
    obtain ⟨rest, stripped, same⟩ := Option.map_eq_some_iff.mp at_k
    cases same
    exact stripPrefix?_eq_some_iff.mp stripped
  · rintro rfl
    exact splitKind?_append kind body

section Acceptance

variable {method : String} {kind : QueryKind} {body condition : List Char}
  {order : Option (List Char)} {m : MethodName} {failure : Failure}

theorem parse_of_divides (prefixed : method.toList = kind.keyword.toList ++ body)
    (divides : Divides body condition order) (some_condition : condition ≠ []) :
    parse method = assemble method kind condition order := by
  rw [parse_eq, splitKind?_eq_some_iff.mpr prefixed]
  simp [divides.parts_eq, some_condition]

/-- What is read is assembled from the parts of what stands behind a prefix. -/
theorem exists_divides_of_parse (ok : parse method = .ok m) :
    ∃ body condition order, method.toList = m.kind.keyword.toList ++ body ∧
      Divides body condition order ∧ condition ≠ [] ∧
      assemble method m.kind condition order = .ok m := by
  obtain ⟨kind, body, prefixed, some_condition, assembled⟩ := parse_eq_ok_iff.mp ok
  have same : m.kind = kind := by
    obtain ⟨clauses, sorts, -, -, rfl⟩ := assemble_eq_ok_iff.mp assembled
    rfl
  rw [same]
  exact ⟨body, _, _, splitKind?_eq_some_iff.mp prefixed, divides_parts body, some_condition,
    assembled⟩

theorem exists_clause_iff {t : Token} (some_text : t.text ≠ []) :
    (∃ c, clause method t = .ok c) ↔ t.text ∉ clauseEndings.map String.toList := by
  rw [← splitSuffix_fst_eq_nil_iff some_text]
  exact exists_map_fieldName_iff method _

theorem exists_sortKey_iff {t : Token} (some_text : t.text ≠ []) :
    (∃ k, sortKey method t = .ok k) ↔ t.text ∉ sortEndings.map String.toList := by
  rw [← splitDirection_fst_eq_nil_iff some_text]
  exact exists_map_fieldName_iff method _

/-- The ordering part begins with a capital, so it has no empty token either. -/
theorem Divides.text_ne_nil (divides : Divides body condition order) :
    ∀ t ∈ sortTokens order, t.text ≠ [] := by
  cases divides with
  | whole => exact nofun
  | ordered _ upper => exact text_ne_nil_of_mem_tokenize (ne_nil_of_startsUpper upper)

theorem exists_assemble_iff (divides : Divides body condition order)
    (some_condition : condition ≠ []) : (∃ m, assemble method kind condition order = .ok m) ↔
      (∀ t ∈ tokenize conditionConnectors condition, t.text ∉ clauseEndings.map String.toList) ∧
        ∀ t ∈ sortTokens order, t.text ∉ sortEndings.map String.toList := by
  have clauses : (∃ cs, (tokenize conditionConnectors condition).mapM (clause method) = .ok cs) ↔
      ∀ t ∈ tokenize conditionConnectors condition, t.text ∉ clauseEndings.map String.toList :=
    exists_mapM_eq_ok_iff.trans <| forall₂_congr fun t ht =>
      exists_clause_iff (text_ne_nil_of_mem_tokenize some_condition t ht)
  have sorts : (∃ ks, sortKeys method order = .ok ks) ↔
      ∀ t ∈ sortTokens order, t.text ∉ sortEndings.map String.toList := by
    rw [sortKeys_eq]
    exact exists_mapM_eq_ok_iff.trans <| forall₂_congr fun t ht =>
      exists_sortKey_iff (divides.text_ne_nil t ht)
  rw [← clauses, ← sorts]
  simp only [assemble_eq_ok_iff]
  constructor
  · rintro ⟨m, clauses, sorts, named, sorted, -⟩
    exact ⟨⟨clauses, named⟩, sorts, sorted⟩
  · rintro ⟨⟨clauses, named⟩, sorts, sorted⟩
    exact ⟨_, clauses, sorts, named, sorted, rfl⟩

theorem grammatical_of_parse (ok : parse method = .ok m) : ∃ condition order,
    Grammatical method m.kind condition order ∧ assemble method m.kind condition order = .ok m := by
  obtain ⟨body, condition, order, prefixed, divides, some_condition, assembled⟩ :=
    exists_divides_of_parse ok
  obtain ⟨clauses, sorts⟩ := (exists_assemble_iff divides some_condition).mp ⟨m, assembled⟩
  exact ⟨condition, order, ⟨⟨body, prefixed, divides⟩, some_condition, clauses, sorts⟩, assembled⟩

theorem exists_parse_iff : (∃ m, parse method = .ok m) ↔
    ∃ kind condition order, Grammatical method kind condition order := by
  constructor
  · rintro ⟨m, ok⟩
    obtain ⟨condition, order, grammatical, -⟩ := grammatical_of_parse ok
    exact ⟨m.kind, condition, order, grammatical⟩
  · rintro ⟨kind, condition, order, ⟨body, prefixed, divides⟩, some_condition, clauses, sorts⟩
    rw [parse_of_divides prefixed divides some_condition]
    exact (exists_assemble_iff divides some_condition).mpr ⟨clauses, sorts⟩

/-- What a name that was read has, part by part. -/
structure Mirrors (m : MethodName) (condition : List Char) (order : Option (List Char)) : Prop where
  clauses : m.clauses.length = (tokenize conditionConnectors condition).length
  connectors : m.connectors.length + 1 = m.clauses.length
  sorts : m.sorts.length = (sortTokens order).length
  clause_fields : ∀ c ∈ m.clauses, c.field ≠ ""
  sort_fields : ∀ k ∈ m.sorts, k.field ≠ ""

theorem field_ne_empty_of_clause {t : Token} {c : Clause} (read : clause method t = .ok c) :
    c.field ≠ "" := by
  obtain ⟨field, named, rfl⟩ := map_eq_ok_iff.mp read
  exact fieldName_ne_empty named

theorem field_ne_empty_of_sortKey {t : Token} {k : SortKey} (read : sortKey method t = .ok k) :
    k.field ≠ "" := by
  obtain ⟨field, named, rfl⟩ := map_eq_ok_iff.mp read
  exact fieldName_ne_empty named

theorem mirrors_of_parse (ok : parse method = .ok m)
    (assembled : assemble method kind condition order = .ok m) : m.Mirrors condition order := by
  have connectors := length_connectors_of_parse ok
  obtain ⟨clauses, sorts, named, sorted, rfl⟩ := assemble_eq_ok_iff.mp assembled
  rw [sortKeys_eq] at sorted
  refine ⟨(mapM_eq_ok_iff.mp named).length_eq.symm, connectors,
    (mapM_eq_ok_iff.mp sorted).length_eq.symm, fun c hc => ?_, fun k hk => ?_⟩
  · obtain ⟨t, -, read⟩ := exists_of_mem_of_mapM_eq_ok named c hc
    exact field_ne_empty_of_clause read
  · obtain ⟨t, -, read⟩ := exists_of_mem_of_mapM_eq_ok sorted k hk
    exact field_ne_empty_of_sortKey read

theorem kind_of_assemble (failed : assemble method kind condition order = .error failure) :
    failure.kind = .dynamicQuery := by
  rw [assemble, sortKeys_eq] at failed
  cases named : (tokenize conditionConnectors condition).mapM (clause method) with
  | error other =>
    rw [named] at failed
    cases failed
    obtain ⟨t, -, at_t⟩ := exists_of_mapM_eq_error named
    exact kind_of_map_fieldName at_t
  | ok clauses =>
    cases sorted : (sortTokens order).mapM (sortKey method) with
    | ok sorts =>
      simp only [named, sorted, ok_bind] at failed
      cases failed
    | error other =>
      simp only [named, sorted, ok_bind] at failed
      cases failed
      obtain ⟨t, -, at_t⟩ := exists_of_mapM_eq_error sorted
      exact kind_of_map_fieldName at_t

theorem kind_of_parse (failed : parse method = .error failure) : failure.kind = .dynamicQuery := by
  rw [parse_eq] at failed
  split at failed
  next =>
    cases failed
    rfl
  next kind body behind =>
    split at failed
    next =>
      cases failed
      rfl
    next => exact kind_of_assemble failed

/-- The names that can be read are the grammatical ones; what is read has a clause for every token
of the condition and a sort for every token of the order, and the other names fail as queries do. -/
theorem parse_grammatical (method : String) :
    ((∃ m, parse method = .ok m) ↔
      ∃ kind condition order, Grammatical method kind condition order) ∧
    (∀ m, parse method = .ok m → ∃ condition order,
      Grammatical method m.kind condition order ∧ m.Mirrors condition order) ∧
    ∀ failure, parse method = .error failure → failure.kind = .dynamicQuery := by
  refine ⟨exists_parse_iff, fun m ok => ?_, fun failure => kind_of_parse⟩
  obtain ⟨condition, order, grammatical, assembled⟩ := grammatical_of_parse ok
  exact ⟨condition, order, grammatical, mirrors_of_parse ok assembled⟩

/-- An ordering keyword at the end of a name belongs to the field in front of it. -/
example : (parse "findByNameOrderBy").toOption =
    some ⟨"findByNameOrderBy", .find, [⟨"nameOrderBy", .equals⟩], [], []⟩ := by
  decide +kernel

end Acceptance

end RecordMapper.MethodName
