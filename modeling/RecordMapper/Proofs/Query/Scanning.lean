import RecordMapper.Query.MethodName

/-!
Scanning for keywords. A text in which no keyword begins, whatever follows it, is passed over as a
whole by the splitting into tokens and by the search for the ordering part.
-/

namespace RecordMapper.MethodName

theorem stripPrefix?_eq_some_iff {start text rest : List Char} :
    stripPrefix? start text = some rest ↔ text = start ++ rest := by
  rw [stripPrefix?]
  constructor
  · intro h
    split at h
    next begins =>
      obtain ⟨tail, rfl⟩ := List.isPrefixOf_iff_prefix.mp begins
      obtain rfl : tail = rest := by simpa using h
      rfl
    next => cases h
  · rintro rfl
    simp

theorem stripSuffix?_eq_some_iff {ending text front : List Char} :
    stripSuffix? ending text = some front ↔ text = front ++ ending := by
  rw [stripSuffix?]
  constructor
  · intro h
    split at h
    next ends =>
      obtain ⟨head, rfl⟩ := List.isSuffixOf_iff_suffix.mp ends
      obtain rfl : head = front := by simpa using h
      rfl
    next => cases h
  · rintro rfl
    simp

theorem afterKeyword?_eq_some_iff {keyword : String} {text rest : List Char} :
    afterKeyword? keyword text = some rest ↔
      text = keyword.toList ++ rest ∧ startsUpper rest = true := by
  rw [afterKeyword?, Option.filter_eq_some_iff, stripPrefix?_eq_some_iff]

theorem connectorAt?_eq_none_iff {keywords : List (String × Connector)} {text : List Char} :
    connectorAt? keywords text = none ↔ ∀ k ∈ keywords, afterKeyword? k.1 text = none := by
  simp [connectorAt?]

theorem exists_keyword_of_connectorAt? {keywords : List (String × Connector)}
    {text rest : List Char} {next : Connector}
    (found : connectorAt? keywords text = some (next, rest)) :
    ∃ k ∈ keywords, k.2 = next ∧ text = k.1.toList ++ rest ∧ startsUpper rest = true := by
  obtain ⟨k, mem, at_k⟩ := List.exists_of_findSome?_eq_some found
  obtain ⟨behind, read, same⟩ := Option.map_eq_some_iff.mp at_k
  obtain ⟨rfl, rfl⟩ := Prod.mk.inj same
  exact ⟨k, mem, rfl, afterKeyword?_eq_some_iff.mp read⟩

/-- What splits a text at a place is a connector there, behind some character of a token. -/
theorem connectorAt?_of_found {keywords : List (String × Connector)} {read text rest : List Char}
    {next : Connector}
    (found : (if read.isEmpty then none else connectorAt? keywords text) = some (next, rest)) :
    read ≠ [] ∧ connectorAt? keywords text = some (next, rest) := by
  have some_read : read ≠ [] := by
    rintro rfl
    cases found
  exact ⟨some_read, by simpa [some_read] using found⟩

/-- No keyword begins in the text while the given one follows. -/
def Silent {α : Type} (keywordAt : List Char → Option α) (following : List Char) :
    List Char → Prop
  | [] => True
  | c :: cs => keywordAt (c :: cs ++ following) = none ∧ Silent keywordAt following cs

section

variable {α : Type} {keywordAt : List Char → Option α}

theorem Silent.append {following a b : List Char} (first : Silent keywordAt (b ++ following) a)
    (second : Silent keywordAt following b) : Silent keywordAt following (a ++ b) := by
  induction a with
  | nil => exact second
  | cons c a ih =>
    refine ⟨?_, ih first.2⟩
    simpa using first.1

theorem silent_of_forall {following text : List Char}
    (dull : ∀ c ∈ text, ∀ rest, keywordAt (c :: rest) = none) :
    Silent keywordAt following text := by
  induction text with
  | nil => trivial
  | cons c text ih =>
    exact ⟨dull c List.mem_cons_self _, ih fun d hd => dull d (List.mem_cons_of_mem _ hd)⟩

end

theorem tokens_cons_of_none {keywords : List (String × Connector)} {c : Char} {cs : List Char}
    (none_here : connectorAt? keywords (c :: cs) = none) (connector : Option Connector)
    (read : List Char) :
    tokens keywords connector read (c :: cs) = tokens keywords connector (c :: read) cs := by
  rw [tokens]
  split
  next found =>
    rw [none_here] at found
    simp at found
  next => rfl

theorem tokens_of_connectorAt? {keywords : List (String × Connector)} {text rest read : List Char}
    {next : Connector} (found : connectorAt? keywords text = some (next, rest))
    (some_read : read ≠ []) (connector : Option Connector) :
    tokens keywords connector read text =
      ⟨connector, read.reverse⟩ :: tokens keywords (some next) [] rest := by
  cases text with
  | nil =>
    obtain ⟨k, -, -, whole, upper⟩ := exists_keyword_of_connectorAt? found
    obtain ⟨-, rfl⟩ := List.append_eq_nil_iff.mp whole.symm
    cases upper
  | cons c cs =>
    rw [tokens]
    split
    next next' rest' found' =>
      obtain ⟨rfl, rfl⟩ : next = next' ∧ rest = rest' := by simpa [some_read, found] using found'
      rfl
    next unfound => simp [some_read, found] at unfound

/-- A silent text goes to the token that is being read. -/
theorem tokens_of_silent {keywords : List (String × Connector)} {following text : List Char}
    (silent : Silent (connectorAt? keywords) following text) (connector : Option Connector)
    (read : List Char) :
    tokens keywords connector read (text ++ following) =
      tokens keywords connector (text.reverse ++ read) following := by
  induction text generalizing read with
  | nil => rfl
  | cons c text ih =>
    refine (tokens_cons_of_none silent.1 connector read).trans ((ih silent.2 (c :: read)).trans ?_)
    rw [List.reverse_cons, List.append_assoc, List.singleton_append]

theorem splitOrder?_of_silent {following text : List Char}
    (silent : Silent (afterKeyword? "OrderBy") following text) :
    splitOrder? (text ++ following) =
      (splitOrder? following).map fun parts => (text ++ parts.1, parts.2) := by
  induction text with
  | nil => simp
  | cons c text ih =>
    have here := silent.1
    rw [List.cons_append] at here
    rw [List.cons_append, splitOrder?, here, ih silent.2]
    cases splitOrder? following <;> rfl

theorem splitOrder?_orderBy {order : List Char} (upper : startsUpper order = true) :
    splitOrder? ("OrderBy".toList ++ order) = some ([], order) := by
  have keyword : afterKeyword? "OrderBy" ("OrderBy".toList ++ order) = some order :=
    afterKeyword?_eq_some_iff.mpr ⟨rfl, upper⟩
  show splitOrder? ('O' :: ("rderBy".toList ++ order)) = _
  rw [splitOrder?, show afterKeyword? "OrderBy" ('O' :: ("rderBy".toList ++ order)) = some order
    from keyword]

end RecordMapper.MethodName
