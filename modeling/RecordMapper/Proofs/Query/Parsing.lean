import RecordMapper.Proofs.Query.MethodText

/-!
Parsing what was put together. The clauses are words with at most a suffix of further segments, so
no keyword begins inside them: the ordering keyword is found where the sort clauses begin, and the
connectors are found where they were put.
-/

namespace RecordMapper

open MethodName Segment

/-- Whether a text is a capital with small letters behind it. -/
def Segment.spells : List Char → Bool
  | [] => false
  | c :: cs => c.isUpper && !cs.isEmpty && cs.all isSmall

theorem Segment.of_spells {c : Char} {cs : List Char} (h : spells (c :: cs) = true) :
    c.isUpper = true ∧ cs ≠ [] ∧ ∀ d ∈ cs, isSmall d = true := by
  simpa [spells, and_assoc] using h

/-- The segment that a text spells. -/
def Segment.of (text : String) (spelled : spells text.toList = true) : Segment :=
  match text.toList, spelled with
  | c :: cs, spelled =>
    have parts := of_spells spelled
    ⟨c, cs, parts.1, parts.2.1, parts.2.2⟩

def Operator.ending : Operator → List Segment
  | .equals => []
  | .lessThan => [.of "Less" (by decide), .of "Than" (by decide)]
  | .greaterThan => [.of "Greater" (by decide), .of "Than" (by decide)]
  | .lessThanEqual =>
    [.of "Less" (by decide), .of "Equal" (by decide), .of "Than" (by decide)]
  | .greaterThanEqual =>
    [.of "Greater" (by decide), .of "Equal" (by decide), .of "Than" (by decide)]
  | .like => [.of "Like" (by decide)]
  | .between => [.of "Between" (by decide)]

def SortOrder.ending : SortOrder → List Segment
  | .ascending => [.of "Asc" (by decide)]
  | .descending => [.of "Desc" (by decide)]

/-- A word stays one when segments without a part of any keyword are added. -/
theorem Segment.IsWord.append {ss ts : List Segment} (word : IsWord ss)
    (plain : ∀ t ∈ ts, t.chars ≠ "And".toList ∧ t.chars ≠ "Or".toList ∧ t.chars ≠ "By".toList) :
    IsWord (ss ++ ts) := by
  refine ⟨by simp [word.some_segment], fun s hs => ?_, ?_⟩
  · rcases List.mem_append.mp hs with mem | mem
    · exact word.no_connector s mem
    · exact ⟨(plain s mem).1, (plain s mem).2.1⟩
  · refine List.isChain_append.mpr ⟨word.no_order, ?_, fun s _ t ht pair => ?_⟩
    · refine List.Pairwise.isChain (List.pairwise_of_forall_mem_list fun s _ t ht pair => ?_)
      exact (plain t ht).2.2 pair.2
    · exact (plain t (List.mem_of_mem_head? ht)).2.2 pair.2

namespace ClauseText

def segments (c : ClauseText) : List Segment := c.word.segments ++ c.operator.ending

theorem text_segments (c : ClauseText) : Segment.text c.segments = c.chars := by
  rw [segments, text_append, chars, Word.chars]
  cases c.operator <;> rfl

theorem isWord (c : ClauseText) : IsWord c.segments := by
  refine c.word.isWord.append ?_
  cases c.operator <;> decide

end ClauseText

namespace SortText

def segments (s : SortText) : List Segment :=
  s.word.segments ++ s.direction.elim [] SortOrder.ending

theorem text_segments (s : SortText) : Segment.text s.segments = s.chars := by
  rw [segments, text_append, chars, Word.chars]
  cases s.direction with
  | none => simp [text]
  | some order => cases order <;> rfl

theorem isWord (s : SortText) : IsWord s.segments := by
  refine s.word.isWord.append ?_
  cases s.direction with
  | none => simp
  | some order => cases order <;> decide

end SortText

namespace Spelling

variable {following : List Char}

theorem startsUpper_chars (s : Spelling) (following : List Char) :
    startsUpper (s.chars ++ following) = true := by
  obtain ⟨connector, capitals⟩ := s
  cases connector <;> cases capitals <;> rfl

theorem connectorAt?_condition (s : Spelling) (upper : startsUpper following = true) :
    connectorAt? conditionConnectors (s.chars ++ following) = some (s.connector, following) := by
  obtain ⟨connector, capitals⟩ := s
  cases connector <;> cases capitals <;>
    simp [connectorAt?, conditionConnectors, afterKeyword?, stripPrefix?, chars, upper]

theorem connectorAt?_order (s : Spelling) (conjunction : s.connector = .and)
    (upper : startsUpper following = true) :
    connectorAt? orderConnectors (s.chars ++ following) = some (s.connector, following) := by
  obtain ⟨connector, capitals⟩ := s
  obtain rfl : connector = .and := conjunction
  cases capitals <;>
    simp [connectorAt?, orderConnectors, afterKeyword?, stripPrefix?, chars, upper]

theorem by_eq_none (s : Spelling) (following : List Char) :
    afterKeyword? "By" (s.chars ++ following) = none := by
  obtain ⟨connector, capitals⟩ := s
  cases connector <;> cases capitals <;> simp [afterKeyword?, stripPrefix?, chars]

theorem silent_orderBy (s : Spelling) (upper : startsUpper following = true) :
    Silent (afterKeyword? "OrderBy") following s.chars := by
  obtain ⟨c, cs, rfl⟩ : ∃ c cs, following = c :: cs := by
    cases following with
    | nil => cases upper
    | cons c cs => exact ⟨c, cs, rfl⟩
  have capital : c ≠ 'd' := by
    rintro rfl
    exact absurd (show Text.isUpper 'd' = true from upper) (by decide)
  obtain ⟨connector, capitals⟩ := s
  cases connector <;> cases capitals <;>
    simp [Silent, afterKeyword?, stripPrefix?, chars, Ne.symm capital]

end Spelling

namespace Joined

variable {κ α : Type} {segments : α → List Segment} {following : List Char}

theorem tailChars_cons (spell : κ → List Char) (text : α → List Char) (x : κ × α)
    (others : List (κ × α)) :
    tailChars spell text (x :: others) =
      spell x.1 ++ (text x.2 ++ tailChars spell text others) := by
  rw [tailChars, List.flatMap_cons, List.append_assoc]
  rfl

theorem opens_tailChars (spell : κ → Spelling) (others : List (κ × α)) (text : α → List Char)
    (opens : Opens following) (elsewhere : afterKeyword? "By" following = none) :
    Opens (tailChars (fun k => (spell k).chars) text others ++ following) ∧
      afterKeyword? "By" (tailChars (fun k => (spell k).chars) text others ++ following) =
        none := by
  cases others with
  | nil => exact ⟨opens, elsewhere⟩
  | cons x others =>
    rw [tailChars_cons, List.append_assoc]
    exact ⟨.inr (Spelling.startsUpper_chars _ _), Spelling.by_eq_none _ _⟩

/-- No ordering keyword begins inside joined words. -/
theorem silent_orderBy (spell : κ → Spelling) (words : ∀ a, IsWord (segments a))
    (opens : Opens following) (elsewhere : afterKeyword? "By" following = none) (j : Joined κ α) :
    Silent (afterKeyword? "OrderBy") following
      (j.chars (fun k => (spell k).chars) fun a => Segment.text (segments a)) := by
  have tail : ∀ others : List (κ × α), Silent (afterKeyword? "OrderBy") following
      (tailChars (fun k => (spell k).chars) (fun a => Segment.text (segments a)) others) := by
    intro others
    induction others with
    | nil => trivial
    | cons x others ih =>
      obtain ⟨opens', elsewhere'⟩ := opens_tailChars spell others
        (fun a => Segment.text (segments a)) opens elsewhere
      rw [tailChars_cons]
      refine Silent.append ?_ (Silent.append ?_ ih)
      · rw [List.append_assoc]
        exact Spelling.silent_orderBy _ (startsUpper_text (words x.2) _)
      · exact Segment.silent_orderBy opens' elsewhere' (words x.2).no_order
  obtain ⟨opens', elsewhere'⟩ := opens_tailChars spell j.others
    (fun a => Segment.text (segments a)) opens elsewhere
  exact Silent.append (Segment.silent_orderBy opens' elsewhere' (words j.first).no_order)
    (tail j.others)

theorem tokens_word {keywords : List (String × Connector)} (known : keywords ⊆ conditionConnectors)
    {ss : List Segment} (word : IsWord ss) (opens : Opens following)
    (connector : Option Connector) :
    tokens keywords connector [] (Segment.text ss ++ following) =
      tokens keywords connector (Segment.text ss).reverse following := by
  rw [tokens_of_silent (silent_connectorAt? known opens word.no_connector), List.append_nil]

/-- Joined words are split at their joints. -/
theorem tokens_chars {keywords : List (String × Connector)} (spell : κ → Spelling)
    (known : keywords ⊆ conditionConnectors) (words : ∀ a, IsWord (segments a))
    (reads : ∀ k following, startsUpper following = true →
      connectorAt? keywords ((spell k).chars ++ following) = some ((spell k).connector, following))
    (first : α) (others : List (κ × α)) (connector : Option Connector) :
    tokens keywords connector []
        (Segment.text (segments first) ++
          tailChars (fun k => (spell k).chars) (fun a => Segment.text (segments a)) others) =
      ⟨connector, Segment.text (segments first)⟩ ::
        others.map fun x => ⟨some (spell x.1).connector, Segment.text (segments x.2)⟩ := by
  induction others generalizing first connector with
  | nil =>
    rw [tailChars, List.flatMap_nil, tokens_word known (words first) (.inl rfl), tokens]
    simp
  | cons x others ih =>
    have upper := startsUpper_text (words x.2)
      (tailChars (fun k => (spell k).chars) (fun a => Segment.text (segments a)) others)
    have some_read : (Segment.text (segments first)).reverse ≠ [] := by
      obtain ⟨s, ss, eq⟩ := List.exists_cons_of_ne_nil (words first).some_segment
      simp [eq, text_cons, Segment.chars]
    rw [tailChars_cons, tokens_word known (words first) (.inr (Spelling.startsUpper_chars _ _)),
      tokens_of_connectorAt? (reads x.1 _ upper) some_read, ih, List.reverse_reverse]
    rfl

/-- The parts, each with the connector in front of it. -/
def tagged (spell : κ → Spelling) (j : Joined κ α) : List (Option Connector × α) :=
  (none, j.first) :: j.others.map fun x => (some (spell x.1).connector, x.2)

theorem tokenize_chars {keywords : List (String × Connector)} (spell : κ → Spelling)
    (known : keywords ⊆ conditionConnectors) (words : ∀ a, IsWord (segments a))
    (reads : ∀ k following, startsUpper following = true →
      connectorAt? keywords ((spell k).chars ++ following) = some ((spell k).connector, following))
    (j : Joined κ α) :
    tokenize keywords (j.chars (fun k => (spell k).chars) fun a => Segment.text (segments a)) =
      (j.tagged spell).map fun y => ⟨y.1, Segment.text (segments y.2)⟩ := by
  rw [tokenize, chars, tokens_chars spell known words reads, tagged, List.map_cons, List.map_map]
  rfl

theorem map_tagged {β : Type} (spell : κ → Spelling) (f : α → β) (j : Joined κ α) :
    ((j.tagged spell).map fun y => f y.2) = j.parts.map f := by
  simp [tagged, parts]

theorem filterMap_tagged (spell : κ → Spelling) (j : Joined κ α) :
    ((j.tagged spell).filterMap fun y => y.1) = j.joints.map fun k => (spell k).connector := by
  simp [tagged, joints]

end Joined

theorem ClauseText.clause_chars (c : ClauseText) (method : String) (connector : Option Connector) :
    clause method ⟨connector, c.chars⟩ = .ok c.reading := by
  rw [clause, c.splitSuffix_chars]
  simp only [c.word.fieldName_chars, Except.map]
  rfl

theorem SortText.sortKey_chars (s : SortText) (method : String) (connector : Option Connector) :
    sortKey method ⟨connector, s.chars⟩ = .ok s.reading := by
  rw [sortKey, s.splitDirection_chars]
  simp only [s.word.fieldName_chars, Except.map]
  rfl

theorem MethodName.splitKind?_append (kind : QueryKind) (body : List Char) :
    splitKind? (kind.keyword.toList ++ body) = some (kind, body) := by
  cases kind <;> simp [splitKind?, QueryKind.all, QueryKind.keyword, stripPrefix?]

namespace MethodText

theorem startsUpper_sorts (sorts : Joined { s : Spelling // s.connector = .and } SortText) :
    startsUpper (sorts.chars (fun s => s.1.chars) SortText.chars) = true := by
  rw [Joined.chars, ← SortText.text_segments]
  exact startsUpper_text sorts.first.isWord _

theorem startsUpper_conditionChars (t : MethodText) : startsUpper t.conditionChars = true := by
  rw [conditionChars, Joined.chars, ← ClauseText.text_segments]
  exact startsUpper_text t.clauses.first.isWord _

/-- The ordering keyword is found in front of the sort clauses and nowhere before. -/
theorem parts_chars (t : MethodText) : parts (t.conditionChars ++ t.orderChars) =
    (t.conditionChars,
      t.order.map fun sorts => sorts.chars (fun s => s.1.chars) SortText.chars) := by
  have segments : ClauseText.chars = fun c => Segment.text c.segments :=
    funext fun c => c.text_segments.symm
  have scan : ∀ following, Opens following → afterKeyword? "By" following = none →
      splitOrder? (t.conditionChars ++ following) =
        (splitOrder? following).map fun parts => (t.conditionChars ++ parts.1, parts.2) := by
    intro following opens elsewhere
    refine splitOrder?_of_silent ?_
    rw [conditionChars, segments]
    exact Joined.silent_orderBy id ClauseText.isWord opens elsewhere t.clauses
  rw [parts, orderChars]
  cases t.order with
  | none =>
    rw [scan [] (.inl rfl) rfl]
    simp [splitOrder?]
  | some sorts =>
    rw [scan _ (.inr rfl) (by simp [afterKeyword?, stripPrefix?]),
      splitOrder?_orderBy (startsUpper_sorts sorts)]
    simp

theorem tokenize_conditionChars (t : MethodText) :
    tokenize conditionConnectors t.conditionChars =
      (t.clauses.tagged id).map fun y => ⟨y.1, y.2.chars⟩ := by
  have segments : ClauseText.chars = fun c => Segment.text c.segments :=
    funext fun c => c.text_segments.symm
  rw [conditionChars, segments]
  exact Joined.tokenize_chars id (List.Subset.refl _) ClauseText.isWord
    (fun k _ upper => k.connectorAt?_condition upper) t.clauses

theorem sortKeys_ok (method : String)
    (sorts : Joined { s : Spelling // s.connector = .and } SortText) :
    sortKeys method (some (sorts.chars (fun s => s.1.chars) SortText.chars)) =
      .ok (sorts.parts.map SortText.reading) := by
  have segments : SortText.chars = fun s => Segment.text s.segments :=
    funext fun s => s.text_segments.symm
  have split : tokenize orderConnectors (sorts.chars (fun s => s.1.chars) SortText.chars) =
      (sorts.tagged (·.1)).map fun y => ⟨y.1, y.2.chars⟩ := by
    rw [segments]
    exact Joined.tokenize_chars (·.1) (by decide) SortText.isWord
      (fun k _ upper => k.1.connectorAt?_order k.2 upper) sorts
  rw [sortKeys, split, ← Joined.map_tagged (·.1)]
  exact mapM_eq_ok fun y _ => y.2.sortKey_chars method y.1

/-- Parsing undoes putting together: a name made of words reads as the parts it was made of. -/
theorem parse_text (t : MethodText) : MethodName.parse t.text = .ok t.reading := by
  have some_condition : t.conditionChars.isEmpty = false := by
    have upper := t.startsUpper_conditionChars
    cases chars : t.conditionChars with
    | nil => simp [chars, startsUpper] at upper
    | cons c cs => rfl
  have clauses : (tokenize conditionConnectors t.conditionChars).mapM (clause t.text) =
      .ok (t.clauses.parts.map ClauseText.reading) := by
    rw [t.tokenize_conditionChars, ← Joined.map_tagged id]
    exact mapM_eq_ok fun y _ => y.2.clause_chars t.text y.1
  have connectors : (tokenize conditionConnectors t.conditionChars).filterMap (·.connector) =
      t.clauses.joints.map (·.connector) := by
    rw [t.tokenize_conditionChars, List.filterMap_map]
    exact Joined.filterMap_tagged id t.clauses
  have sorts : sortKeys t.text (t.order.map fun sorts =>
      sorts.chars (fun s => s.1.chars) SortText.chars) =
        .ok (t.order.elim [] fun sorts => sorts.parts.map SortText.reading) := by
    cases t.order with
    | none => rfl
    | some sorts => exact sortKeys_ok t.text sorts
  have prefixed : splitKind? t.text.toList = some (t.kind, t.conditionChars ++ t.orderChars) := by
    rw [text, String.toList_ofList]
    exact splitKind?_append _ _
  rw [parse_eq, prefixed]
  simp only [t.parts_chars, some_condition, assemble, clauses, sorts, connectors, ok_bind]
  rfl

end MethodText

/-- Words that begin like keywords: `OrderNumber`, `Brand` and `Andy`. -/
def orderNumberWord : Word :=
  ⟨[.of "Order" (by decide), .of "Number" (by decide)], by decide, by decide, by decide⟩

def brandWord : Word := ⟨[.of "Brand" (by decide)], by decide, by decide, by decide⟩

def andyWord : Word := ⟨[.of "Andy" (by decide)], by decide, by decide, by decide⟩

/-- An order number or a brand, and a name, sorted by order number and brand. -/
def orderNumberText : MethodText :=
  { kind := .find
    clauses :=
      { first := ⟨orderNumberWord, .between, nofun⟩
        others := [(⟨.or, true⟩, ⟨brandWord, .like, nofun⟩),
          (⟨.and, false⟩, ⟨andyWord, .equals, fun _ other some_suffix => by
            cases other with
            | equals => exact absurd rfl some_suffix
            | _ => decide⟩)] }
    order := some
      { first := ⟨orderNumberWord, some .descending, nofun⟩
        others := [(⟨⟨.and, true⟩, rfl⟩, ⟨brandWord, none, fun _ order => by
          cases order <;> decide⟩)] } }

theorem parse_orderNumberText :
    MethodName.parse "findByOrderNumberBetweenORBrandLikeAndAndyOrderByOrderNumberDescANDBrand" =
      .ok
        { name := "findByOrderNumberBetweenORBrandLikeAndAndyOrderByOrderNumberDescANDBrand"
          kind := .find
          clauses := [⟨"orderNumber", .between⟩, ⟨"brand", .like⟩, ⟨"andy", .equals⟩]
          connectors := [.or, .and]
          sorts := [⟨"orderNumber", .descending⟩, ⟨"brand", .ascending⟩] } :=
  orderNumberText.parse_text

end RecordMapper
