import ElementFinder.Proofs.Snapshot.Matches
import ElementFinder.Proofs.XPath.PlainPath

/-!
# Elements with some text as their label

The path `//*[@label='…']` asks every element of a document for its label.  A predicate whose value
is a truth value that does not depend on places keeps what passes it (`keep_truth`), and two
slashes lead to every element, as each but the top one is a child (`walk_everywhere`).  The text
between the quotation marks may be any without such a mark: it becomes a literal as it stands
(`ofText_labelPath`), after the name of the type that accepts all types was replaced in it
(`normalized_labelPath`).
-/

namespace ElementFinder

namespace XPath

/-! ## All elements that pass a predicate -/

/-- A filter that fails nowhere keeps what its results say. -/
theorem filterMapM_eq_ok {ε α β : Type} {f : α → Except ε (Option β)} {g : α → Option β}
    {as : List α} (h : ∀ a ∈ as, f a = .ok (g a)) : as.filterMapM f = .ok (as.filterMap g) := by
  induction as with
  | nil => rfl
  | cons a as ih =>
      obtain ⟨ha, has⟩ := List.forall_mem_cons.mp h
      rw [List.filterMapM_cons, ha, ih has]
      cases hg : g a <;> simp [hg] <;> rfl

/-- A predicate that only looks at the node keeps the nodes that pass it. -/
theorem keep_truth {d : Document} {ns : List Node} {p : Expr} {test : Node → Bool}
    (hp : ∀ n ∈ ns, ∀ place size, evaluate d ⟨n, place, size⟩ p = .ok (.truth (test n))) :
    keep d ns p = .ok (ns.filter test) := by
  rw [keep, filterMapM_eq_ok (g := Option.guard test ∘ Prod.fst)]
  · rw [← List.filterMap_map, List.zipIdx_map_fst, List.filterMap_eq_filter]
  · rintro ⟨n, place⟩ hn
    have hvalue := hp n (List.fst_mem_of_mem_zipIdx hn) place ns.length
    simp only [hvalue]
    rfl

namespace Document

variable {d : Document}

/-- A node followed by the elements below it in the whole document. -/
theorem nodeSet_everything (d : Document) :
    d.nodeSet (.root :: (List.range d.size).map .element) =
      .root :: (List.range d.size).map .element := by
  apply Ordered.nodeSet_eq
  · rw [Ordered, List.pairwise_cons, List.pairwise_map]
    refine ⟨?_, List.pairwise_lt_range.imp fun hlt => ?_⟩
    · intro n hn
      obtain ⟨i, -, rfl⟩ := List.mem_map.mp hn
      simp [before, rank]
    · simpa [before_element] using Nat.le_of_lt hlt
  · refine List.nodup_cons.mpr ⟨by simp, List.nodup_range.map ?_⟩
    exact fun i j hij => Node.element.inj hij

/-- The elements right below a node. -/
def childElements (d : Document) : Node → List Nat
  | .root => [0]
  | .element i => d.children i
  | _ => []

/-- A step to all children leads to the elements right below a node. -/
theorem select_child (hsize : d.size ≠ 0) (n : Node) :
    ((Axis.child.select d n).filter fun m => NodeTest.anyName.passes d .child m) =
      (d.childElements n).map .element := by
  match n with
  | .root => simp [Axis.select, hsize, NodeTest.passes, Axis.isPrincipal, childElements]
  | .element i =>
      refine List.filter_eq_self.mpr fun m hm => ?_
      obtain ⟨j, -, rfl⟩ := List.mem_map.mp hm
      rfl
  | .attribute .. => rfl
  | .binding _ => rfl

/-- Every element is right below the root or some element. -/
theorem Nested.exists_childElements_iff (hd : d.Nested) {j : Nat} :
    (∃ n ∈ Node.root :: (List.range d.size).map .element, j ∈ d.childElements n) ↔ j < d.size := by
  simp only [List.mem_cons, exists_eq_or_imp, List.mem_map, List.mem_range,
    exists_exists_and_eq_and, childElements, List.not_mem_nil, or_false]
  constructor
  · rintro (rfl | ⟨i, hi, hj⟩)
    · exact hd.size_pos
    · exact hd.lt_of_mem_descendants hi (List.mem_of_mem_filter hj)
  · intro hj
    cases j with
    | zero => exact .inl rfl
    | succ j =>
        obtain ⟨i, hij, hparent, hin⟩ := hd.exists_parent (Nat.succ_pos j) hj
        refine .inr ⟨i, Nat.lt_trans hij hj, List.mem_filter.mpr ⟨?_, by simpa using hparent⟩⟩
        exact mem_numbers.mpr ⟨hij, hin⟩

end Document

/-- Two slashes lead to the root and all elements. -/
theorem walk_everything (d : Document) (rest : List Step) :
    walk d [.root] (.mk .descendantOrSelf .anyNode [] :: rest) =
      walk d (.root :: (List.range d.size).map .element) rest := by
  have hlevels : ([Node.root].flatMap fun n => (Axis.descendantOrSelf.select d n).filter fun m =>
      NodeTest.anyNode.passes d .descendantOrSelf m) =
        .root :: (List.range d.size).map .element := by
    rw [List.flatMap_singleton]
    exact List.filter_eq_self.mpr fun _ _ => rfl
  rw [walk_plain, hlevels, d.nodeSet_everything]

/-- **Everywhere.**  Two slashes and a star with a predicate that only looks at the element lead
to all elements that pass it. -/
theorem walk_everywhere {d : Document} (hd : d.Nested) {p : Expr} {test : Nat → Bool}
    (hp : ∀ i < d.size, ∀ place size,
      evaluate d ⟨.element i, place, size⟩ p = .ok (.truth (test i))) :
    walk d [.root] [.mk .descendantOrSelf .anyNode [], .mk .child .anyName [p]] =
      .ok (((List.range d.size).filter test).map .element) := by
  have hstep : ∀ n ∈ Node.root :: (List.range d.size).map .element,
      takeStep d n (.mk .child .anyName [p]) =
        .ok (((d.childElements n).filter test).map .element) := by
    intro n hn
    have hkeep : keep d ((d.childElements n).map .element) p =
        .ok (((d.childElements n).map .element).filter fun m => m.owner?.any test) := by
      refine keep_truth fun m hm place size => ?_
      obtain ⟨j, hj, rfl⟩ := List.mem_map.mp hm
      exact hp j (hd.exists_childElements_iff.mp ⟨n, hn, hj⟩) place size
    rw [List.filter_map] at hkeep
    rw [takeStep, Document.select_child (Nat.ne_of_gt hd.size_pos), keepAll, hkeep]
    exact keepAll.eq_1 ..
  have hmem : ∀ j, j ∈ (List.range d.size).filter test ↔
      j ∈ (Node.root :: (List.range d.size).map .element).flatMap
        fun n => (d.childElements n).filter test := by
    intro j
    rw [List.mem_flatMap, List.mem_filter, List.mem_range, ← hd.exists_childElements_iff]
    simp only [List.mem_filter, ← and_assoc, exists_and_right]
  have hgather := d.nodeSet_elements (List.pairwise_lt_range.filter _) hmem
  rw [List.map_flatMap] at hgather
  rw [walk_everything, walk, mapM_eq_ok hstep]
  change walk d (d.nodeSet ((Node.root :: (List.range d.size).map .element).flatMap
    fun n => ((d.childElements n).filter test).map .element)) [] = _
  rw [hgather, walk]

/-! ## The path to a label -/

namespace Lexing

/-- A quoted text ends at the next quotation mark. -/
theorem takeLiteral?_quoted {content : List Char} (hquote : '\x27' ∉ content) (rest : List Char) :
    takeLiteral? ('\x27' :: (content ++ '\x27' :: rest)) = some (String.ofList content, rest) := by
  have hgoes : ∀ c ∈ content, (c != '\x27') = true := by
    intro c hc
    simpa using fun heq : c = '\x27' => hquote (heq ▸ hc)
  have hstops : ∀ c ∈ ('\x27' :: rest).head?, (c != '\x27') = false := by
    simp
  simp only [takeLiteral?, takeWhile_append_of_stop hgoes hstops,
    dropWhile_append_of_stop hgoes hstops]
  rfl

/-- A quoted text is one token. -/
theorem takeToken?_quoted {content : List Char} (hquote : '\x27' ∉ content) (rest : List Char) :
    takeToken? false ('\x27' :: (content ++ '\x27' :: rest)) =
      some ([.literal (String.ofList content)], rest) := by
  simp only [takeToken?, takeLiteral?_quoted hquote]
  rfl

/-- The name of the label is one token. -/
theorem takeToken?_label {rest : List Char} :
    takeToken? false ('l' :: 'a' :: 'b' :: 'e' :: 'l' :: '=' :: rest) =
      some ([.test (.named "label")], '=' :: rest) :=
  rfl

/-- Two slashes stand for a step to any level. -/
theorem takeToken?_everywhere {rest : List Char} :
    takeToken? false ('/' :: '/' :: rest) = some (anyLevel, rest) :=
  rfl

/-- A token before a text that is cut into others. -/
theorem tokensFrom_next (operand ends : Bool) {fuel : Nat} {c d : Char}
    {cs rest : List Char} {tokens others : List Token}
    (htake : takeToken? operand (c :: cs) = some (tokens, d :: rest))
    (hends : ((tokens.getLast?).map Token.endsOperand).getD operand = ends)
    (hothers : tokensFrom fuel ends (d :: rest) = some others)
    (hspace : isSpace c = false ∧ isSpace d = false := by decide) :
    tokensFrom (fuel + 1) operand (c :: cs) = some (tokens ++ others) := by
  have hrest : ∀ e ∈ (d :: rest).head?, isSpace e = false := by
    simpa using hspace.2
  rw [tokensFrom_cons ends hspace.1 htake hends hrest, hothers, Option.map_some]

end Lexing

/-- The path to all elements that have some text as their label. -/
def labelPath (text : String) : String :=
  "//*[@label='" ++ text ++ "']"

open Lexing in
/-- The tokens of the path: the text is one literal. -/
theorem ofText?_labelPath {text : String} (hquote : '\x27' ∉ text.toList) :
    Token.ofText? (labelPath text) =
      some [.slash, .axis .descendantOrSelf, .test .anyNode, .slash, .test .anyName, .openBracket,
        .axis .attribute, .test (.named "label"), .operator .equal, .literal text,
        .closeBracket] := by
  have hchars : (labelPath text).toList =
      '/' :: '/' :: '*' :: '[' :: '@' :: 'l' :: 'a' :: 'b' :: 'e' :: 'l' :: '=' ::
        '\x27' :: (text.toList ++ ['\x27', ']']) := by
    simp [labelPath]
  obtain ⟨fuel, hfuel⟩ : ∃ fuel, (labelPath text).length + 1 = fuel + 9 := by
    refine ⟨text.length + 6, ?_⟩
    rw [← String.length_toList, hchars]
    simp only [List.length_cons, List.length_append, List.length_nil, String.length_toList]
  have hliteral := takeToken?_quoted hquote [']']
  rw [String.ofList_toList] at hliteral
  rw [Token.ofText?, hchars, hfuel]
  have hclose : tokensFrom (fuel + 2) true [']'] = some [.closeBracket] := rfl
  have hliteral := tokensFrom_next false true hliteral rfl hclose
  have hequal := tokensFrom_next true false (c := '=') rfl rfl hliteral
  have hlabel := tokensFrom_next false true (c := 'l') takeToken?_label rfl hequal
  have hattribute := tokensFrom_next false false (c := '@') rfl rfl hlabel
  have hopen := tokensFrom_next true false (c := '[') rfl rfl hattribute
  have hname := tokensFrom_next false true (c := '*') rfl rfl hopen
  exact tokensFrom_next false false (c := '/') takeToken?_everywhere rfl hname

/-- The path is read as a step to every element that has the text as its label. -/
theorem ofText_labelPath {text : String} (hquote : '\x27' ∉ text.toList) :
    Expr.ofText (labelPath text) =
      .ok (.path .root [.mk .descendantOrSelf .anyNode [],
        .mk .child .anyName [.attributeIs "label" text]]) := by
  rw [Expr.ofText, ofText?_labelPath hquote]
  rfl

end XPath

/-! ## The name of the type that accepts all types -/

section Replacing

variable {needle replacement : List Char}

/-- Replacing brings in no other characters than those of the replacement. -/
theorem mem_replaceFrom {c : Char} {cs : List Char} {skip : Nat}
    (h : c ∈ replaceFrom needle replacement skip cs) : c ∈ replacement ∨ c ∈ cs := by
  induction cs generalizing skip with
  | nil => cases skip <;> exact .inr h
  | cons d cs ih =>
      cases skip with
      | succ skip => exact (ih h).imp_right (List.mem_cons_of_mem d)
      | zero =>
          rw [replaceFrom] at h
          split at h
          · rcases List.mem_append.mp h with h | h
            · exact .inl h
            · exact (ih h).imp_right (List.mem_cons_of_mem d)
          · rcases List.mem_cons.mp h with rfl | h
            · exact .inr List.mem_cons_self
            · exact (ih h).imp_right (List.mem_cons_of_mem d)

/-- What does not occur is not replaced. -/
theorem replaceAll_eq_self {cs : List Char} (h : occursIn needle cs = false) :
    replaceAll needle replacement cs = cs := by
  induction cs with
  | nil => rfl
  | cons c cs ih =>
      obtain ⟨hhere, hlater⟩ := Bool.or_eq_false_iff.mp h
      rw [replaceAll, replaceFrom, hhere]
      exact congrArg (c :: ·) (ih hlater)

/-- A replacement that is not longer makes no text longer. -/
theorem length_replaceFrom_le (hshort : replacement.length ≤ needle.length) (cs : List Char)
    (skip : Nat) : (replaceFrom needle replacement skip cs).length ≤ cs.length - skip := by
  induction cs generalizing skip with
  | nil => cases skip <;> exact Nat.zero_le _
  | cons c cs ih =>
      cases skip with
      | succ skip =>
          have := ih skip
          simpa [replaceFrom] using this
      | zero =>
          rw [replaceFrom]
          split
          · rename_i hoccurs
            have hlength := (List.isPrefixOf_iff_prefix.mp hoccurs).length_le
            have := ih (needle.length - 1)
            simp only [List.length_append, List.length_cons] at hlength ⊢
            omega
          · have := ih 0
            simpa using this

/-- A shorter replacement makes a text shorter in which anything is replaced. -/
theorem length_replaceAll_lt (hshort : replacement.length < needle.length) {cs : List Char}
    (h : occursIn needle cs = true) : (replaceAll needle replacement cs).length < cs.length := by
  induction cs with
  | nil =>
      have hempty : needle = [] := by simpa [occursIn] using h
      simp [hempty] at hshort
  | cons c cs ih =>
      rw [replaceAll, replaceFrom]
      split
      · rename_i hoccurs
        have hlength := (List.isPrefixOf_iff_prefix.mp hoccurs).length_le
        have := length_replaceFrom_le (Nat.le_of_lt hshort) cs (needle.length - 1)
        simp only [List.length_append, List.length_cons] at hlength ⊢
        omega
      · rename_i hhere
        have hlater : occursIn needle cs = true := by
          simpa [occursIn, hhere] using h
        exact Nat.succ_lt_succ (ih hlater)

/-- Replacing by something shorter changes a text exactly when there is something to replace. -/
theorem replaceAll_eq_self_iff (hshort : replacement.length < needle.length) {cs : List Char} :
    replaceAll needle replacement cs = cs ↔ occursIn needle cs = false := by
  refine ⟨fun hsame => ?_, replaceAll_eq_self⟩
  rw [← Bool.not_eq_true]
  intro hoccurs
  exact Nat.ne_of_lt (length_replaceAll_lt hshort hoccurs) (congrArg List.length hsame)

end Replacing

namespace XPath

/-- An expression stays as it is when it does not hold the name. -/
theorem normalized_eq_self_iff {text : String} :
    normalized text = text ↔ occursIn ElementType.any.name.toList text.toList = false := by
  have hshort : ['*'].length < ElementType.any.name.toList.length := by decide
  rw [← replaceAll_eq_self_iff hshort, ← String.toList_inj, normalized, String.toList_ofList]

/-- Normalizing puts no quotation mark into a text. -/
theorem quote_notMem_normalized {text : String} (hquote : '\x27' ∉ text.toList) :
    '\x27' ∉ (normalized text).toList := by
  rw [normalized, String.toList_ofList]
  intro hmem
  rcases mem_replaceFrom hmem with hstar | htext
  · exact absurd hstar (by decide)
  · exact hquote htext

/-- **The name is replaced inside the quotation marks too.** -/
theorem normalized_labelPath (text : String) :
    normalized (labelPath text) = labelPath (normalized text) := by
  have hquote : ∀ c ∈ "']".toList.head?, c ∉ ElementType.any.name.toList := by
    intro c hc
    obtain rfl := Option.some.inj hc
    decide
  have hbefore : ∀ cs, replaceAll ElementType.any.name.toList ['*']
      ("//*[@label='".toList ++ cs) =
        "//*[@label='".toList ++ replaceAll ElementType.any.name.toList ['*'] cs :=
    fun _ => rfl
  have hafter : replaceAll ElementType.any.name.toList ['*'] "']".toList = "']".toList := by
    decide
  have hwithin := replaceFrom_append hquote ['*'] (Nat.zero_le text.toList.length)
  rw [← replaceAll, ← replaceAll, ← replaceAll, hafter] at hwithin
  rw [← String.toList_inj, normalized, String.toList_ofList, labelPath, labelPath, normalized]
  simp only [String.toList_append, String.toList_ofList, List.append_assoc]
  rw [hbefore, hwithin]

/-- **The path selects** the elements that have the text as their label. -/
theorem Document.select_labelPath {d : Document} (hd : d.Nested) {text : String}
    (hquote : '\x27' ∉ text.toList) :
    d.select (labelPath text) = .ok (((List.range d.size).filter fun i =>
      (d.entry i).attributes.any fun a => a.1 = "label" ∧ a.2 = text).map .element) := by
  have hwalk := walk_everywhere hd fun i _ place size =>
    evaluate_attributeIs d i place size "label" text
  rw [Document.select, ofText_labelPath hquote]
  simp only [evaluate_path hwalk]

end XPath

end ElementFinder
