import RecordMapper.Proofs.Query.Grammar
import RecordMapper.Proofs.Text.Slice

/-!
Splitting a text at its connectors. The tokens, each behind the keyword in front of it, are the whole
text, and no connector is left inside a token. The scan that finds them by byte offsets comes to its
end without ever cutting a character in two, and with the same tokens.
-/

namespace RecordMapper

open MethodName

/-- A part, with the parts behind it. -/
inductive Joined.Leads {κ α : Type} (j : Joined κ α) : α → List (κ × α) → Prop
  | first : Leads j j.first j.others
  | later {k : κ} {a : α} {others : List (κ × α)} (behind : (k, a) :: others <:+ j.others) :
      Leads j a others

namespace MethodName

section Splitting

variable {keywords : List (String × Connector)}

/-- The text begins with a keyword in front of an upper-case character. -/
def Connects (keywords : List (String × Connector)) (text : List Char) : Prop :=
  ∃ k ∈ keywords, ∃ rest, text = k.1.toList ++ rest ∧ startsUpper rest = true

theorem connectorAt?_eq_none_iff_not_connects {text : List Char} :
    connectorAt? keywords text = none ↔ ¬ Connects keywords text := by
  rw [connectorAt?_eq_none_iff]
  constructor
  · rintro none_of ⟨k, mem, rest, whole, upper⟩
    have found := afterKeyword?_eq_some_iff.mpr ⟨whole, upper⟩
    rw [none_of k mem] at found
    cases found
  · intro apart k mem
    refine Option.eq_none_iff_forall_ne_some.mpr fun rest found => ?_
    exact apart ⟨k, mem, rest, afterKeyword?_eq_some_iff.mp found⟩

/-- Silence, place by place. -/
theorem Silent.not_connects {following front back : List Char} (some_back : back ≠ [])
    (silent : Silent (connectorAt? keywords) following (front ++ back)) :
    ¬ Connects keywords (back ++ following) := by
  induction front with
  | nil =>
    obtain ⟨c, cs, rfl⟩ := List.exists_cons_of_ne_nil some_back
    exact connectorAt?_eq_none_iff_not_connects.mp silent.1
  | cons c front ih => exact ih silent.2

/-- A keyword of a list. -/
abbrev Keyword (keywords : List (String × Connector)) : Type :=
  { k : String × Connector // k ∈ keywords }

/-- The texts behind their keywords. -/
def behindKeywords (others : List (Keyword keywords × List Char)) : List Char :=
  Joined.tailChars (fun k => k.1.1.toList) id others

/-- The joined texts as tokens, the first one behind the given connector. -/
def tokensOf (connector : Option Connector) (j : Joined (Keyword keywords) (List Char)) :
    List Token :=
  ⟨connector, j.first⟩ :: j.others.map fun x => ⟨some x.1.1.2, x.2⟩

/-- The text is made of parts that are not empty, of which all but the first begin in upper case,
and inside a part it nowhere goes on with a keyword in front of an upper-case character. -/
structure Splits (text : List Char) (j : Joined (Keyword keywords) (List Char)) : Prop where
  joined : j.first ++ behindKeywords j.others = text
  some_chars : ∀ part ∈ j.parts, part ≠ []
  upper : ∀ x ∈ j.others, startsUpper x.2 = true
  quiet : ∀ part others, j.Leads part others → ∀ front back, part = front ++ back →
    front ≠ [] → back ≠ [] → ¬ Connects keywords (back ++ behindKeywords others)

theorem quiet_of_silent {part following : List Char}
    (silent : Silent (connectorAt? keywords) following part.tail) (front back : List Char)
    (split : part = front ++ back) (some_front : front ≠ []) (some_back : back ≠ []) :
    ¬ Connects keywords (back ++ following) := by
  obtain ⟨c, cs, rfl⟩ := List.exists_cons_of_ne_nil some_front
  rw [split, List.cons_append, List.tail_cons] at silent
  exact silent.not_connects some_back

theorem Splits.single {part : List Char} (some_part : part ≠ [])
    (silent : Silent (connectorAt? keywords) [] part.tail) :
    Splits part (⟨part, []⟩ : Joined (Keyword keywords) (List Char)) := by
  refine ⟨by simp [behindKeywords, Joined.tailChars], by simpa [Joined.parts] using some_part,
    by simp, fun a others leads => ?_⟩
  cases leads with
  | first => exact quiet_of_silent silent
  | later behind => simp at behind

theorem behindKeywords_cons (k : Keyword keywords) (part : List Char)
    (others : List (Keyword keywords × List Char)) :
    behindKeywords ((k, part) :: others) = k.1.1.toList ++ (part ++ behindKeywords others) :=
  Joined.tailChars_cons ..

/-- A part in front of a keyword and of a text that is split. -/
theorem Splits.cons {part rest : List Char} {j : Joined (Keyword keywords) (List Char)}
    (splits : Splits rest j) (k : Keyword keywords) (upper : startsUpper j.first = true)
    (some_part : part ≠ [])
    (silent : Silent (connectorAt? keywords) (k.1.1.toList ++ rest) part.tail) :
    Splits (part ++ (k.1.1.toList ++ rest))
      (⟨part, (k, j.first) :: j.others⟩ : Joined (Keyword keywords) (List Char)) := by
  have behind : behindKeywords ((k, j.first) :: j.others) = k.1.1.toList ++ rest := by
    rw [behindKeywords_cons, splits.joined]
  refine ⟨by rw [behind], ?_, ?_, fun a others leads => ?_⟩
  · exact List.forall_mem_cons.mpr ⟨some_part, splits.some_chars⟩
  · exact List.forall_mem_cons.mpr ⟨upper, splits.upper⟩
  · cases leads with
    | first =>
      rw [behind]
      exact quiet_of_silent silent
    | later within =>
      rcases List.suffix_cons_iff.mp within with same | within
      · cases same
        exact splits.quiet _ _ .first
      · exact splits.quiet _ _ (.later within)

theorem startsUpper_of_append {front back : List Char} (some_front : front ≠ []) :
    startsUpper (front ++ back) = startsUpper front := by
  obtain ⟨c, cs, rfl⟩ := List.exists_cons_of_ne_nil some_front
  rfl

/-- Behind its first character the part that has been read is silent, in front of what follows. -/
theorem exists_splits_tokens {connector : Option Connector} {read text : List Char}
    (some_text : read ≠ [] ∨ text ≠ [])
    (silent : Silent (connectorAt? keywords) text read.reverse.tail) :
    ∃ j : Joined (Keyword keywords) (List Char),
      tokens keywords connector read text = tokensOf connector j ∧
        Splits (read.reverse ++ text) j := by
  fun_induction tokens keywords connector read text with
  | case1 connector read =>
    have some_read : read.reverse ≠ [] := by simpa using some_text
    rw [List.append_nil]
    exact ⟨⟨read.reverse, []⟩, rfl, .single some_read silent⟩
  | case2 connector read c cs next rest found ih =>
    obtain ⟨some_read, connects⟩ := connectorAt?_of_found found
    obtain ⟨k, mem, rfl, whole, upper⟩ := exists_keyword_of_connectorAt? connects
    obtain ⟨j, later, splits⟩ := ih (.inr (ne_nil_of_startsUpper upper)) trivial
    have some_first : j.first ≠ [] := splits.some_chars _ List.mem_cons_self
    rw [List.reverse_nil, List.nil_append] at splits
    rw [← splits.joined, startsUpper_of_append some_first] at upper
    rw [whole] at silent ⊢
    refine ⟨⟨read.reverse, (⟨k, mem⟩, j.first) :: j.others⟩, ?_, ?_⟩
    · rw [later]
      rfl
    · exact splits.cons ⟨k, mem⟩ upper (by simpa using some_read) silent
  | case3 connector read c cs unfound ih =>
    have later := ih (.inl (List.cons_ne_nil c read)) ?_
    · simpa using later
    · cases read with
      | nil => trivial
      | cons d read =>
        have here : connectorAt? keywords (c :: cs) = none := by simpa using unfound
        rw [List.reverse_cons, List.tail_append_of_ne_nil (by simp)]
        exact .append (by simpa using silent) ⟨here, trivial⟩

end Splitting

/-- A scan for connectors between two steps: the tokens found so far, the connector in front of the
next one, and the byte offsets of its start and of the next character. -/
structure Scan where
  tokens : List Token := []
  connector : Option Connector := none
  start : Nat := 0
  index : Nat := 0

namespace Scan

/-- Whether a keyword stands at a byte offset, in front of an upper-case character. Like the steps of
the scan, this gives up when an offset is inside a character. -/
def connects? (text : String) (index : Nat) (keyword : String) : Option Bool := do
  let here ← Text.slice? text index text.utf8ByteSize
  if keyword.toList.isPrefixOf here.toList then
    let behind ← Text.slice? text (index + keyword.utf8ByteSize) text.utf8ByteSize
    return startsUpper behind.toList
  else return false

/-- The first keyword that stands at the next character. A token has at least one character, so at
the start of a token there is none. -/
def keyword? (keywords : List (String × Connector)) (text : String) (s : Scan) :
    Option (Option (String × Connector)) :=
  if s.start < s.index then keywords.findM? fun k => connects? text s.index k.1 else some none

/-- Ends the token in front of a keyword and goes behind the keyword. -/
def cut (text : String) (s : Scan) (keyword : String) (next : Connector) : Option Scan :=
  (Text.slice? text s.start s.index).map fun token =>
    { tokens := s.tokens ++ [⟨s.connector, token.toList⟩]
      connector := some next
      start := s.index + keyword.utf8ByteSize
      index := s.index + keyword.utf8ByteSize }

/-- Goes behind the next character. -/
def pass (text : String) (s : Scan) : Option Scan :=
  (Text.slice? text s.index text.utf8ByteSize).map fun here =>
    { s with index := s.index + (here.toList.head?.map Char.utf8Size).getD 1 }

def step (keywords : List (String × Connector)) (text : String) (s : Scan) : Option Scan :=
  (s.keyword? keywords text).bind fun
    | some (keyword, next) => s.cut text keyword next
    | none => s.pass text

/-- A bound on the steps that are left. A keyword may take the scan no further, but behind it comes
a character. -/
def remaining (text : String) (s : Scan) : Nat :=
  2 * (text.utf8ByteSize - s.index) + if s.start < s.index then 1 else 0

theorem remaining_step {keywords : List (String × Connector)} {text : String} {s s' : Scan}
    (inside : s.index < text.utf8ByteSize) (h : s.step keywords text = some s') :
    s'.remaining text < s.remaining text := by
  obtain ⟨found, at_index, h⟩ := Option.bind_eq_some_iff.mp h
  cases found with
  | some k =>
    have some_read : s.start < s.index := by
      by_contra fresh
      simp [keyword?, fresh] at at_index
    obtain ⟨token, -, rfl⟩ := Option.map_eq_some_iff.mp h
    simp only [remaining, some_read, if_true, Nat.lt_irrefl, if_false]
    omega
  | none =>
    obtain ⟨here, -, rfl⟩ := Option.map_eq_some_iff.mp h
    have forward : 1 ≤ (here.toList.head?.map Char.utf8Size).getD 1 := by
      cases here.toList.head? with
      | none => exact Nat.le_refl 1
      | some c => exact c.utf8Size_pos
    simp only [remaining]
    split <;> split <;> omega

/-- Steps to the end of the text, and ends the last token there. -/
def run (keywords : List (String × Connector)) (text : String) (s : Scan) : Option (List Token) :=
  if _inside : s.index < text.utf8ByteSize then
    match _next : s.step keywords text with
    | some s' => run keywords text s'
    | none => none
  else
    (Text.slice? text s.start text.utf8ByteSize).map fun last =>
      s.tokens ++ [⟨s.connector, last.toList⟩]
termination_by s.remaining text
decreasing_by exact remaining_step _inside _next

/-- The scan stands behind the characters that it has read for a token and in front of the rest. -/
def At (text : String) (s : Scan) (read rest : List Char) : Prop :=
  ∃ before : String, text = before ++ String.ofList read.reverse ++ String.ofList rest ∧
    before.utf8ByteSize = s.start ∧ (before ++ String.ofList read.reverse).utf8ByteSize = s.index

section At

variable {keywords : List (String × Connector)} {text : String} {s : Scan} {read rest : List Char}

theorem At.token (h : At text s read rest) :
    Text.slice? text s.start s.index = some (String.ofList read.reverse) := by
  obtain ⟨before, whole, start, index⟩ := h
  exact Text.slice?_eq_some_iff.mpr ⟨before, _, whole, start, index⟩

theorem At.here (h : At text s read rest) :
    Text.slice? text s.index text.utf8ByteSize = some (String.ofList rest) := by
  obtain ⟨before, whole, -, index⟩ := h
  exact Text.slice?_eq_some_iff.mpr ⟨_, "", by simpa using whole, index, by rw [← whole]⟩

theorem At.behind {keyword : String} {more : List Char}
    (h : At text s read (keyword.toList ++ more)) :
    Text.slice? text (s.index + keyword.utf8ByteSize) text.utf8ByteSize =
      some (String.ofList more) := by
  obtain ⟨before, whole, -, index⟩ := h
  rw [String.ofList_append, String.ofList_toList, ← String.append_assoc] at whole
  refine Text.slice?_eq_some_iff.mpr ⟨_, "", by simpa using whole, ?_, by rw [← whole]⟩
  rw [String.utf8ByteSize_append, index]

theorem At.start_lt_iff (h : At text s read rest) : s.start < s.index ↔ read ≠ [] := by
  obtain ⟨before, -, start, index⟩ := h
  have size := Text.utf8ByteSize_ofList_pos_iff read.reverse
  rw [String.utf8ByteSize_append] at index
  rw [← List.reverse_ne_nil_iff, ← size]
  omega

theorem At.index_lt_iff (h : At text s read rest) : s.index < text.utf8ByteSize ↔ rest ≠ [] := by
  obtain ⟨before, whole, -, index⟩ := h
  have size := Text.utf8ByteSize_ofList_pos_iff rest
  rw [whole, String.utf8ByteSize_append, index, ← size]
  omega

theorem At.connects?_eq (h : At text s read rest) (keyword : String) :
    connects? text s.index keyword = some (afterKeyword? keyword rest).isSome := by
  rw [connects?, h.here]
  by_cases begins : keyword.toList.isPrefixOf rest = true
  · obtain ⟨more, rfl⟩ := List.isPrefixOf_iff_prefix.mp begins
    simp [h.behind, afterKeyword?, stripPrefix?]
  · rw [List.isPrefixOf_iff_prefix] at begins
    simp [begins, afterKeyword?, stripPrefix?]

theorem At.keyword?_eq (h : At text s read rest) (some_read : read ≠ []) :
    s.keyword? keywords text =
      some (keywords.find? fun k => (afterKeyword? k.1 rest).isSome) := by
  rw [keyword?, if_pos (h.start_lt_iff.mpr some_read)]
  simp only [h.connects?_eq]
  exact List.findM?_pure (m := Option) _ keywords

theorem At.keyword?_start (h : At text s [] rest) : s.keyword? keywords text = some none := by
  rw [keyword?, if_neg (by simp [h.start_lt_iff])]

theorem find?_of_connectorAt? {more : List Char} {next : Connector}
    (found : connectorAt? keywords rest = some (next, more)) :
    ∃ k, keywords.find? (fun k => (afterKeyword? k.1 rest).isSome) = some k ∧ k.2 = next ∧
      rest = k.1.toList ++ more := by
  obtain ⟨front, k, back, split, at_k, earlier⟩ := List.findSome?_eq_some_iff.mp found
  obtain ⟨behind, read, same⟩ := Option.map_eq_some_iff.mp at_k
  obtain ⟨rfl, rfl⟩ := Prod.mk.inj same
  refine ⟨k, List.find?_eq_some_iff_append.mpr ⟨by simp [read], front, back, split, ?_⟩, rfl,
    (afterKeyword?_eq_some_iff.mp read).1⟩
  intro other mem
  have unread : afterKeyword? other.1 rest = none := by simpa using earlier other mem
  simp [unread]

theorem find?_eq_none_of_connectorAt? (unfound : connectorAt? keywords rest = none) :
    keywords.find? (fun k => (afterKeyword? k.1 rest).isSome) = none := by
  refine List.find?_eq_none.mpr fun k mem => ?_
  simp [connectorAt?_eq_none_iff.mp unfound k mem]

theorem At.step_of_connectorAt? (h : At text s read rest) (some_read : read ≠ [])
    {more : List Char} {next : Connector}
    (found : connectorAt? keywords rest = some (next, more)) :
    ∃ behind, let s' : Scan :=
        ⟨s.tokens ++ [⟨s.connector, read.reverse⟩], some next, behind, behind⟩
      s.step keywords text = some s' ∧ At text s' [] more := by
  obtain ⟨k, first, rfl, rfl⟩ := find?_of_connectorAt? found
  refine ⟨s.index + k.1.utf8ByteSize, ?_, ?_⟩
  · rw [step, h.keyword?_eq some_read, first]
    simp [cut, h.token]
  · obtain ⟨before, whole, start, index⟩ := h
    refine ⟨before ++ String.ofList read.reverse ++ k.1, ?_, ?_, ?_⟩
    · simp [whole, String.append_assoc]
    · rw [String.utf8ByteSize_append, index]
    · simp only [List.reverse_nil, String.ofList_nil, String.append_empty]
      rw [String.utf8ByteSize_append, index]

theorem At.step_of_none {c : Char} {cs : List Char} (h : At text s read (c :: cs))
    (unfound : s.keyword? keywords text = some none) :
    let s' : Scan := { s with index := s.index + c.utf8Size }
    s.step keywords text = some s' ∧ At text s' (c :: read) cs := by
  refine ⟨?_, ?_⟩
  · rw [step, unfound]
    simp [pass, h.here]
  · obtain ⟨before, whole, start, index⟩ := h
    have next : String.ofList (c :: read).reverse =
        String.ofList read.reverse ++ String.singleton c := by
      simp [String.ofList_append]
    refine ⟨before, ?_, start, ?_⟩
    · rw [whole, next, String.ofList_cons]
      simp only [String.append_assoc]
    · rw [next, ← String.append_assoc, String.utf8ByteSize_append, index]
      simp

theorem run_of_step {s' : Scan} (inside : s.index < text.utf8ByteSize)
    (stepped : s.step keywords text = some s') : run keywords text s = run keywords text s' := by
  rw [run, dif_pos inside]
  split
  next next_step =>
    cases stepped.symm.trans next_step
    rfl
  next stuck =>
    rw [stepped] at stuck
    cases stuck

theorem At.run_end (h : At text s read []) :
    run keywords text s = some (s.tokens ++ [⟨s.connector, read.reverse⟩]) := by
  have finished : ¬ s.index < text.utf8ByteSize := by simp [h.index_lt_iff]
  have last : Text.slice? text s.start text.utf8ByteSize = some (String.ofList read.reverse) := by
    obtain ⟨before, whole, start, index⟩ := h
    exact Text.slice?_eq_some_iff.mpr ⟨before, _, whole, start, by simp [whole]⟩
  rw [run, dif_neg finished, last]
  simp

/-- The scan finds the tokens of what is left, behind those that it has found. -/
theorem At.run_eq (h : At text s read rest) :
    run keywords text s = some (s.tokens ++ MethodName.tokens keywords s.connector read rest) := by
  generalize opened : s.connector = connector
  fun_induction MethodName.tokens keywords connector read rest generalizing s with
  | case1 connector read => rw [h.run_end, opened]
  | case2 connector read c cs next rest found ih =>
    obtain ⟨some_read, connects⟩ := connectorAt?_of_found found
    obtain ⟨behind, stepped, there⟩ := h.step_of_connectorAt? some_read connects
    have inside := h.index_lt_iff.mpr (List.cons_ne_nil c cs)
    rw [run_of_step inside stepped, ih there rfl, opened]
    simp
  | case3 connector read c cs unfound ih =>
    have quiet : s.keyword? keywords text = some none := by
      cases read with
      | nil => exact h.keyword?_start
      | cons d read =>
        have here : connectorAt? keywords (c :: cs) = none := by simpa using unfound
        rw [h.keyword?_eq (List.cons_ne_nil d read), find?_eq_none_of_connectorAt? here]
    obtain ⟨stepped, there⟩ := h.step_of_none quiet
    have inside := h.index_lt_iff.mpr (List.cons_ne_nil c cs)
    rw [run_of_step inside stepped]
    exact ih there opened

end At

end Scan

/-- The scan of a text that is not empty comes to its end with the tokens of the text, and they are
its parts, behind connectors that the keywords between the parts spell. -/
theorem tokenize_splits (keywords : List (String × Connector)) {text : String}
    (some_text : text ≠ "") :
    Scan.run keywords text {} = some (tokenize keywords text.toList) ∧
      ∃ j : Joined (Keyword keywords) (List Char),
        tokenize keywords text.toList = tokensOf none j ∧ Splits text.toList j := by
  have start : Scan.At text {} [] text.toList := ⟨"", by simp, rfl, rfl⟩
  have some_chars : text.toList ≠ [] := by simpa using some_text
  exact ⟨start.run_eq, exists_splits_tokens (.inr some_chars) trivial⟩

/-- A connector behind a keyword that is a token, capitals next to each other, and characters of
several bytes. -/
theorem tokenize_splits_adjacent :
    Scan.run conditionConnectors "AndAndÉtéOROrderAndyÀ" {} =
        some [⟨none, "And".toList⟩, ⟨some .and, "Été".toList⟩, ⟨some .or, "OrderAndyÀ".toList⟩] := by
  have tokens : tokenize conditionConnectors "AndAndÉtéOROrderAndyÀ".toList =
    [⟨none, "And".toList⟩, ⟨some .and, "Été".toList⟩, ⟨some .or, "OrderAndyÀ".toList⟩] := by
      decide +kernel
  rw [← tokens]
  exact (tokenize_splits conditionConnectors (by decide)).1

end MethodName

end RecordMapper
