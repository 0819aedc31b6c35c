import Mathlib.Tactic.Choose
import ShapeCheck.Proofs.Conformance
import ShapeCheck.Proofs.Wordings

/-!
# The lines of a mismatch

The text of a mismatch lists the nodes of its tree in pre-order, each on a line of its own:
a margin with one segment for each node above it, and then the message of the node.  Only a
union without alternatives adds another line, which is empty.

Main statement: where nothing that the nodes mention breaks a line, the text is split at
its line breaks into exactly these lines (`split_text`), and an indent is added to each line
of a node and to nothing else.
-/

namespace ShapeCheck.Mismatch

/-! ## The nodes of a tree -/

/-- A node of a tree, with the nodes above it from the root down. -/
structure Node where
  above : List Problem
  self : Problem

/-- A node of a part, seen from the whole. -/
def Node.under (m : Problem) (n : Node) : Node := ⟨m :: n.above, n.self⟩

mutual

/-- The nodes of a tree in pre-order. -/
def nodes : Problem → List Node
  | .unionNoMatch errors =>
    ⟨[], .unionNoMatch errors⟩ :: (nodesOfAll errors).map (.under (.unionNoMatch errors))
  | .arrayError error index =>
    ⟨[], .arrayError error index⟩ :: (nodes error).map (.under (.arrayError error index))
  | .recordError error key =>
    ⟨[], .recordError error key⟩ :: (nodes error).map (.under (.recordError error key))
  | .objectError error key =>
    ⟨[], .objectError error key⟩ :: (nodes error).map (.under (.objectError error key))
  | .incorrectType expected got => [⟨[], .incorrectType expected got⟩]
  | .incorrectValue expected got => [⟨[], .incorrectValue expected got⟩]
  | .requiredKeyMissing key => [⟨[], .requiredKeyMissing key⟩]
  | .illegalExtraKey key => [⟨[], .illegalExtraKey key⟩]
  | .checkerFailed reason => [⟨[], .checkerFailed reason⟩]
termination_by structural m => m

/-- The nodes of trees, one tree after another. -/
def nodesOfAll : List Problem → List Node
  | [] => []
  | m :: rest => nodes m ++ nodesOfAll rest
termination_by structural ms => ms

end

theorem nodesOfAll_eq (errors : List Problem) : nodesOfAll errors = errors.flatMap nodes := by
  induction errors with
  | nil => rfl
  | cons m rest ih => rw [nodesOfAll, ih, List.flatMap_cons]

/-- The mismatch of one part, and that of the whole which tells where the part is. -/
inductive Wraps : Problem → Problem → Prop
  | element (error : Problem) (index : Int) : Wraps (.arrayError error index) error
  | value (error : Problem) (key : Value) : Wraps (.recordError error key) error
  | member (error : Problem) (key : Value) : Wraps (.objectError error key) error

/-- A mismatch without parts. -/
inductive IsLeaf : Problem → Prop
  | incorrectType (expected got : Value) : IsLeaf (.incorrectType expected got)
  | incorrectValue (expected got : Value) : IsLeaf (.incorrectValue expected got)
  | requiredKeyMissing (key : Value) : IsLeaf (.requiredKeyMissing key)
  | illegalExtraKey (key : Value) : IsLeaf (.illegalExtraKey key)
  | checkerFailed (reason : Option String) : IsLeaf (.checkerFailed reason)

variable {m error : Problem} {told : Problem → String} {indent : String}

theorem nodes_of_wraps (h : Wraps m error) : m.nodes = ⟨[], m⟩ :: error.nodes.map (.under m) := by
  cases h <;> rfl

theorem nodes_of_isLeaf (h : IsLeaf m) : m.nodes = [⟨[], m⟩] := by
  cases h <;> rfl

/-! ## The lines of a node -/

/-- What a node adds in front of the lines of the nodes below it. -/
def segment : Problem → String
  | .unionNoMatch _ => alternativeMark
  | .arrayError .. | .recordError .. | .objectError .. => nestedIndent
  | _ => ""

/-- What stands in front of a node: one segment for each node above it. -/
def Node.margin (n : Node) : String := String.join (n.above.map segment)

/-- What a node tells of itself. -/
def message : Problem → Except Fault String
  | .incorrectType expected got => do
    match expected with
    | .tagged _ tag form =>
      if form.isSimple then
        return "The value " ++ (← got.plain) ++ " isn't assignable to type " ++ tag.label
    | _ => pure ()
    return "The value " ++ (← got.plain) ++ " doesn't match " ++ (← expected.describe)
  | .incorrectValue expected got => do
    return "The value " ++ (← got.plain) ++ " isn't " ++ (← expected.plain)
  | .unionNoMatch _ => .ok "The value isn't assignable to any of the union types:"
  | .arrayError _ index => do
    return "The array element #" ++ (← Number.intText index) ++
      " doesn't match the specified type:"
  | .recordError _ key => do
    return "The key \"" ++ (← key.plain) ++ "\" doesn't match the Record type:"
  | .objectError _ key => do
    return "The key \"" ++ (← key.plain) ++ "\" of this object is invalid:"
  | .requiredKeyMissing key => do
    return "The required key \"" ++ (← key.plain) ++ "\" is missing from this object"
  | .illegalExtraKey key => do
    return "This object has an extra key \"" ++ (← key.plain) ++ "\""
  | .checkerFailed reason => .ok ("Checker function failed: " ++ reason.getD "False")

/-- The lines that follow the one of a node before any other node is listed. -/
def trailing : Problem → List String
  | .unionNoMatch [] => [""]
  | _ => []

/-- The lines of a node that tells a given message. -/
def Node.lines (told : Problem → String) (indent : String) (n : Node) : List String :=
  (indent ++ (n.margin ++ told n.self)) :: n.self.trailing

/-- The lines of nodes below another one have its segment in their margin. -/
theorem lines_under (m : Problem) (ns : List Node) :
    (ns.map (.under m)).flatMap (Node.lines told indent) =
      ns.flatMap (Node.lines told (indent ++ m.segment)) := by
  rw [List.flatMap_map]
  congr 1
  funext n
  simp [Node.lines, Node.under, Node.margin, String.append_assoc]

theorem lines_root (m : Problem) :
    Node.lines told indent ⟨[], m⟩ = (indent ++ told m) :: m.trailing := by
  simp [Node.lines, Node.margin]

/-- Every tree has a line. -/
theorem lines_ne_nil (m : Problem) : m.nodes.flatMap (Node.lines told indent) ≠ [] := by
  cases m <;> simp [nodes, Node.lines]

/-! ## The text of a tree -/

/-- The nodes of a tree have messages. -/
def Tells (told : Problem → String) (m : Problem) : Prop :=
  ∀ n ∈ m.nodes, n.self.message = .ok (told n.self)

/-- The text of a tree is made of the lines of its nodes. -/
def Listed (told : Problem → String) (m : Problem) : Prop :=
  ∀ indent, m.text indent = .ok ("\n".intercalate (m.nodes.flatMap (Node.lines told indent)))

theorem Tells.root (h : Tells told m) : m.message = .ok (told m) := by
  have hroot : ⟨[], m⟩ ∈ m.nodes := by cases m <;> simp [nodes]
  exact h _ hroot

theorem Tells.of_wraps (h : Tells told m) (hwraps : Wraps m error) : Tells told error := by
  intro n hn
  have hunder : n.under m ∈ m.nodes := by
    rw [nodes_of_wraps hwraps]
    exact List.mem_cons_of_mem _ (List.mem_map_of_mem hn)
  exact h (n.under m) hunder

theorem Tells.of_union {errors : List Problem} (h : Tells told (.unionNoMatch errors)) :
    ∀ m ∈ errors, Tells told m := by
  intro m hm n hn
  have hunder : n.under (.unionNoMatch errors) ∈ (unionNoMatch errors).nodes := by
    rw [nodes, nodesOfAll_eq]
    exact List.mem_cons_of_mem _ (List.mem_map_of_mem (List.mem_flatMap_of_mem hm hn))
  exact h (n.under (.unionNoMatch errors)) hunder

theorem listed_of_isLeaf (h : IsLeaf m) (hm : m.message = .ok (told m)) : Listed told m := by
  intro indent
  have htext : m.text indent = (indent ++ ·) <$> m.message := by
    cases h with
    | incorrectType expected got =>
        cases expected with
        | tagged mark tag form =>
            cases hsimple : form.isSimple <;>
              simp [text, Value.mismatchText, message, hsimple, String.append_assoc]
        | _ => simp [text, Value.mismatchText, message, String.append_assoc]
    | checkerFailed reason => exact congrArg Except.ok String.append_assoc
    | _ => simp [text, Value.mismatchText, message, String.append_assoc]
  have htrailing : m.trailing = [] := by cases h <;> rfl
  rw [htext, hm, nodes_of_isLeaf h, List.flatMap_singleton, lines_root, htrailing,
    String.intercalate_singleton]
  rfl

theorem listed_of_wraps (h : Wraps m error) (hm : m.message = .ok (told m))
    (herror : Listed told error) : Listed told m := by
  intro indent
  have htext : m.text indent = do
      let own ← m.message
      let rest ← error.text (indent ++ nestedIndent)
      return indent ++ own ++ "\n" ++ rest := by
    cases h with
    | element error index =>
        have hheader : " doesn't match the specified type:\n" =
            " doesn't match the specified type:" ++ "\n" := rfl
        simp [text, Value.mismatchText, message, hheader, String.append_assoc,
          -String.reduceAppend]
    | value error key =>
        have hheader : "\" doesn't match the Record type:\n" =
            "\" doesn't match the Record type:" ++ "\n" := rfl
        simp [text, Value.mismatchText, message, hheader, String.append_assoc,
          -String.reduceAppend]
    | member error key =>
        have hheader : "\" of this object is invalid:\n" =
            "\" of this object is invalid:" ++ "\n" := rfl
        simp [text, Value.mismatchText, message, hheader, String.append_assoc,
          -String.reduceAppend]
  have hsegment : m.segment = nestedIndent := by cases h <;> rfl
  have htrailing : m.trailing = [] := by cases h <;> rfl
  rw [htext, hm, herror, nodes_of_wraps h, List.flatMap_cons, lines_root, htrailing, lines_under,
    hsegment, List.singleton_append, String.intercalate_cons_of_ne_nil (lines_ne_nil error)]
  rfl

/-- Lines that are joined in groups are joined. -/
theorem intercalate_flatMap {α : Type} {sep : String} {f : α → List String} {items : List α}
    (hf : ∀ item ∈ items, f item ≠ []) :
    sep.intercalate (items.map fun item => sep.intercalate (f item)) =
      sep.intercalate (items.flatMap f) := by
  induction items with
  | nil => rfl
  | cons head tail ih =>
      rw [List.forall_mem_cons] at hf
      cases tail with
      | nil => simp
      | cons next rest =>
          have hrest : (next :: rest).flatMap f ≠ [] := by
            simp [hf.2 next List.mem_cons_self]
          rw [List.map_cons, String.intercalate_cons_of_ne_nil (by simp), ih hf.2,
            ← String.intercalate_append_of_ne_nil hf.1 hrest, ← List.flatMap_cons]

theorem mismatchTexts_of_listed {errors : List Problem} (h : ∀ m ∈ errors, Listed told m)
    (indent : String) :
    Value.mismatchTexts errors indent =
      .ok (errors.map fun m => "\n".intercalate (m.nodes.flatMap (Node.lines told indent))) := by
  induction errors with
  | nil => rfl
  | cons first rest ih =>
      rw [List.forall_mem_cons] at h
      have hfirst := h.1 indent
      rw [text] at hfirst
      rw [Value.mismatchTexts, hfirst, ih h.2]
      rfl

theorem listed_of_union {errors : List Problem}
    (hm : (unionNoMatch errors).message = .ok (told (.unionNoMatch errors)))
    (herrors : ∀ m ∈ errors, Listed told m) : Listed told (.unionNoMatch errors) := by
  intro indent
  have hheader : "The value isn't assignable to any of the union types:\n" =
      told (.unionNoMatch errors) ++ "\n" := by
    rw [← Except.ok.inj hm]
    rfl
  have htext : (unionNoMatch errors).text indent =
      .ok (indent ++ told (.unionNoMatch errors) ++ "\n" ++ "\n".intercalate (errors.map fun m =>
        "\n".intercalate (m.nodes.flatMap (Node.lines told (indent ++ alternativeMark))))) := by
    rw [text, Value.mismatchText, mismatchTexts_of_listed herrors, hheader, ← String.append_assoc]
    rfl
  have hsegment : (unionNoMatch errors).segment = alternativeMark := rfl
  rw [htext, nodes, List.flatMap_cons, lines_root, lines_under, hsegment, nodesOfAll_eq,
    List.flatMap_assoc, intercalate_flatMap fun m _ => lines_ne_nil m]
  cases errors with
  | nil => rfl
  | cons first rest =>
      have hrest : (first :: rest).flatMap (fun m => m.nodes.flatMap
          (Node.lines told (indent ++ alternativeMark))) ≠ [] := by
        simp [lines_ne_nil first]
      have htrailing : (unionNoMatch (first :: rest)).trailing = [] := rfl
      rw [htrailing, List.singleton_append, String.intercalate_cons_of_ne_nil hrest]

mutual

/-- A text lists the nodes of a tree that have messages. -/
theorem listed_of_tells : ∀ m : Problem, Tells told m → Listed told m
  | .unionNoMatch errors, h => listed_of_union h.root (listed_of_all_tell errors h.of_union)
  | .arrayError error index, h =>
    listed_of_wraps (.element error index) h.root
      (listed_of_tells error (h.of_wraps (.element error index)))
  | .recordError error key, h =>
    listed_of_wraps (.value error key) h.root
      (listed_of_tells error (h.of_wraps (.value error key)))
  | .objectError error key, h =>
    listed_of_wraps (.member error key) h.root
      (listed_of_tells error (h.of_wraps (.member error key)))
  | .incorrectType expected got, h => listed_of_isLeaf (.incorrectType expected got) h.root
  | .incorrectValue expected got, h => listed_of_isLeaf (.incorrectValue expected got) h.root
  | .requiredKeyMissing key, h => listed_of_isLeaf (.requiredKeyMissing key) h.root
  | .illegalExtraKey key, h => listed_of_isLeaf (.illegalExtraKey key) h.root
  | .checkerFailed reason, h => listed_of_isLeaf (.checkerFailed reason) h.root

theorem listed_of_all_tell : ∀ errors : List Problem, (∀ m ∈ errors, Tells told m) →
    ∀ m ∈ errors, Listed told m
  | [], _ => nofun
  | first :: rest, h => by
      rw [List.forall_mem_cons] at h ⊢
      exact ⟨listed_of_tells first h.1, listed_of_all_tell rest h.2⟩

end

/-! ## Lines that are not broken -/

/-- A text that exists and has no line break. -/
def OnOneLine (written : Except Fault String) : Prop := ∃ s, written = .ok s ∧ '\n' ∉ s.toList

/-- What the message of a node mentions, but for an index. -/
def mentioned : Problem → List (Except Fault String)
  | .incorrectType expected got =>
    got.plain :: if Wording.isToldByTag expected then [] else [expected.describe]
  | .incorrectValue expected got => [got.plain, expected.plain]
  | .unionNoMatch _ | .arrayError .. => []
  | .recordError _ key | .objectError _ key => [key.plain]
  | .requiredKeyMissing key | .illegalExtraKey key => [key.plain]
  | .checkerFailed reason => [.ok (reason.getD "False")]

/-- The digits of an index are not too many for a text. -/
def IndexShort : Problem → Prop
  | .arrayError _ index => index.natAbs < 10 ^ Number.maxDigits
  | _ => True

/-- The lines of a text. -/
def splitLines (s : String) : List String := (s.toList.splitOn '\n').map String.ofList

theorem intText_onOneLine {i : Int} (h : i.natAbs < 10 ^ Number.maxDigits) :
    OnOneLine (Number.intText i) := by
  rw [Number.intText, Nat.pow_eq, if_pos h]
  refine ⟨_, rfl, ?_⟩
  have hdigits : '\n' ∉ Nat.toDigits 10 i.natAbs := by
    intro hmem
    have hdigit := Nat.isDigit_of_mem_toDigits (b := 10) (by decide) (by decide) hmem
    exact absurd hdigit (by decide)
  split <;> simp [hdigits]

theorem label_onOneLine (tag : Tag) : '\n' ∉ tag.label.toList := by
  cases tag <;> simp [Tag.label]

theorem incorrectType_onOneLine {expected got : Value} (hgot : OnOneLine got.plain)
    (hexpected : Wording.isToldByTag expected = false → OnOneLine expected.describe) :
    OnOneLine (incorrectType expected got).message := by
  obtain ⟨s, hs, hline⟩ := hgot
  by_cases htold : Wording.isToldByTag expected = true
  · cases expected with
    | tagged mark tag form =>
        have hsimple : form.isSimple = true := htold
        have hlabel := label_onOneLine tag
        refine ⟨_, by rw [message, hs, if_pos hsimple]; rfl, ?_⟩
        simp [hline, hlabel]
    | _ => cases htold
  · rw [Bool.not_eq_true] at htold
    obtain ⟨s', hs', hline'⟩ := hexpected htold
    have hmessage : (incorrectType expected got).message = do
        return "The value " ++ (← got.plain) ++ " doesn't match " ++ (← expected.describe) := by
      cases expected with
      | tagged mark tag form =>
          have hsimple : form.isSimple = false := htold
          simp [message, hsimple]
      | _ => simp [message]
    refine ⟨_, by rw [hmessage, hs, hs']; rfl, ?_⟩
    simp [hline, hline']

/-- A message is on one line if what it mentions is. -/
theorem message_onOneLine (hmentioned : ∀ written ∈ m.mentioned, OnOneLine written)
    (hindex : m.IndexShort) : OnOneLine m.message := by
  cases m with
  | incorrectType expected got =>
      refine incorrectType_onOneLine (hmentioned _ List.mem_cons_self) ?_
      intro hdescribed
      exact hmentioned _ (by simp [mentioned, hdescribed])
  | incorrectValue expected got =>
      obtain ⟨⟨s, hs, hline⟩, ⟨s', hs', hline'⟩, -⟩ := by
        simpa only [mentioned, List.forall_mem_cons] using hmentioned
      refine ⟨_, by rw [message, hs, hs']; rfl, ?_⟩
      simp [hline, hline']
  | unionNoMatch errors => exact ⟨_, rfl, by simp⟩
  | arrayError error index =>
      obtain ⟨s, hs, hline⟩ := intText_onOneLine hindex
      refine ⟨_, by rw [message, hs]; rfl, ?_⟩
      simp [hline]
  | checkerFailed reason =>
      obtain ⟨s, hs, hline⟩ := hmentioned _ List.mem_cons_self
      obtain rfl := Except.ok.inj hs
      refine ⟨_, rfl, ?_⟩
      simp [hline]
  | recordError _ key | objectError _ key | requiredKeyMissing key | illegalExtraKey key =>
      obtain ⟨s, hs, hline⟩ := hmentioned _ List.mem_cons_self
      refine ⟨_, by rw [message, hs]; rfl, ?_⟩
      simp [hline]

/-! ## Texts that are split -/

theorem splitLines_intercalate {lines : List String} (hlines : ∀ line ∈ lines, '\n' ∉ line.toList)
    (hne : lines ≠ []) : splitLines ("\n".intercalate lines) = lines := by
  have hbreak : "\n".toList = ['\n'] := rfl
  rw [splitLines, String.toList_intercalate, hbreak, List.splitOn_intercalate, List.map_map]
  · simp
  · simpa using hlines
  · simpa using hne

/-- Margins do not break a line. -/
theorem margin_onOneLine (n : Node) : '\n' ∉ n.margin.toList := by
  have hsegment (m : Problem) : '\n' ∉ m.segment.toList := by
    unfold segment
    split <;> decide
  simp [Node.margin, hsegment]

theorem lines_onOneLine {n : Node} {line : String} (hindent : '\n' ∉ indent.toList)
    (htold : '\n' ∉ (told n.self).toList) (h : line ∈ n.lines told indent) :
    '\n' ∉ line.toList := by
  rcases List.mem_cons.mp h with rfl | h
  · simp [hindent, margin_onOneLine n, htold]
  · cases hself : n.self with
    | unionNoMatch errors =>
        cases errors with
        | nil =>
            rw [hself] at h
            obtain rfl := List.mem_singleton.mp h
            decide
        | cons first rest =>
            rw [hself] at h
            cases h
    | _ =>
        rw [hself] at h
        cases h

/-- Where what the nodes of a tree mention is on one line each, the text of the tree has the
line of each node in pre-order, with the empty line of a union without alternatives; and an
indent is added to the lines of nodes only. -/
theorem split_text (hindent : '\n' ∉ indent.toList)
    (hmentioned : ∀ n ∈ m.nodes, ∀ written ∈ n.self.mentioned, OnOneLine written)
    (hindex : ∀ n ∈ m.nodes, n.self.IndexShort) :
    ∃ told : Problem → String, (∀ n ∈ m.nodes, n.self.message = .ok (told n.self)) ∧
      ∃ indented bare, m.text indent = .ok indented ∧ m.text "" = .ok bare ∧
        splitLines indented = m.nodes.flatMap (fun n =>
          (indent ++ (n.margin ++ told n.self)) :: n.self.trailing) ∧
        splitLines bare = m.nodes.flatMap (fun n =>
          (n.margin ++ told n.self) :: n.self.trailing) := by
  have hmessage : ∀ p : Problem, (∃ n ∈ m.nodes, n.self = p) →
      ∃ s, p.message = .ok s ∧ '\n' ∉ s.toList := by
    rintro p ⟨n, hn, rfl⟩
    exact message_onOneLine (hmentioned n hn) (hindex n hn)
  choose! told htold using hmessage
  have htells : Tells told m := fun n hn => (htold n.self ⟨n, hn, rfl⟩).1
  have hsplit {indent : String} (hindent : '\n' ∉ indent.toList) :
      splitLines ("\n".intercalate (m.nodes.flatMap (Node.lines told indent))) =
        m.nodes.flatMap (Node.lines told indent) := by
    refine splitLines_intercalate ?_ (lines_ne_nil m)
    intro line hline
    obtain ⟨n, hn, hline⟩ := List.mem_flatMap.mp hline
    exact lines_onOneLine hindent (htold n.self ⟨n, hn, rfl⟩).2 hline
  have hlisted := listed_of_tells m htells
  refine ⟨told, htells, _, _, hlisted indent, hlisted "", hsplit hindent, ?_⟩
  have hbare : Node.lines told "" = fun n => (n.margin ++ told n.self) :: n.self.trailing := by
    funext n
    simp [Node.lines]
  rw [hsplit (by decide), hbare]

/-- A member with two alternatives, of which one has none itself. -/
def nestedProblem : Problem :=
  .objectError
    (.unionNoMatch [.arrayError (.requiredKeyMissing (.text "id")) 1, .unionNoMatch []])
    (.text "tags")

theorem split_text_nested :
    '\n' ∉ "> ".toList ∧
    (∀ n ∈ nestedProblem.nodes, ∀ written ∈ n.self.mentioned, OnOneLine written) ∧
    (∀ n ∈ nestedProblem.nodes, n.self.IndexShort) ∧
    ∃ written, nestedProblem.text "> " = .ok written ∧
      splitLines written =
        ["> The key \"tags\" of this object is invalid:",
         ">   The value isn't assignable to any of the union types:",
         ">   -  The array element #1 doesn't match the specified type:",
         ">   -    The required key \"id\" is missing from this object",
         ">   -  The value isn't assignable to any of the union types:",
         ""] := by
  have hindent : '\n' ∉ "> ".toList := by decide
  have htags : (Value.text "tags").plain = .ok "tags" := rfl
  have hid : (Value.text "id").plain = .ok "id" := rfl
  have hshort : (1 : Int).natAbs < 10 ^ Number.maxDigits := Wording.short_of_digit (by decide)
  have hone : Number.intText 1 = .ok "1" := by
    rw [Number.intText, Nat.pow_eq, if_pos hshort]
    rfl
  have hmentioned : ∀ n ∈ nestedProblem.nodes, ∀ written ∈ n.self.mentioned,
      OnOneLine written := by
    have htagsLine : OnOneLine (Value.text "tags").plain := ⟨"tags", htags, by decide⟩
    have hidLine : OnOneLine (Value.text "id").plain := ⟨"id", hid, by decide⟩
    simp [nestedProblem, nodes, nodesOfAll, Node.under, mentioned, htagsLine, hidLine]
  have hindex : ∀ n ∈ nestedProblem.nodes, n.self.IndexShort := by
    simp only [nestedProblem, nodes, nodesOfAll, Node.under, IndexShort, List.map_cons,
      List.map_nil, List.cons_append, List.nil_append, List.append_nil, List.forall_mem_cons,
      hshort, and_self, List.not_mem_nil, false_implies, implies_true]
  obtain ⟨told, htold, written, -, hwritten, -, hlines, -⟩ :=
    split_text hindent hmentioned hindex
  refine ⟨hindent, hmentioned, hindex, written, hwritten, ?_⟩
  simp only [nestedProblem, nodes, nodesOfAll, Node.under, List.map_cons, List.map_nil,
    List.cons_append, List.nil_append, List.append_nil, List.forall_mem_cons, message, htags, hid,
    hone] at htold
  obtain ⟨hmember, hunion, helement, hmissing, hempty, -⟩ := htold
  rw [hlines]
  simp [nestedProblem, nodes, nodesOfAll, Node.under, Node.margin, segment, trailing,
    nestedIndent, alternativeMark, ← Except.ok.inj hmember, ← Except.ok.inj hunion,
    ← Except.ok.inj helement, ← Except.ok.inj hmissing, ← Except.ok.inj hempty]

theorem text_of_long_index {i : Int} (hlong : 10 ^ Number.maxDigits ≤ i.natAbs)
    (error : Problem) (indent : String) :
    (arrayError error i).text indent = .error .digitLimit := by
  have hindex : Number.intText i = .error .digitLimit :=
    Number.intText_eq_error_iff.mpr ⟨hlong, rfl⟩
  rw [text, Value.mismatchText, hindex]
  rfl

/-- A tree with an index of too many digits has no text, though nothing else that its nodes
mention breaks a line. -/
theorem long_index_untold :
    (∀ n ∈ (arrayError (.checkerFailed none) (10 ^ 5000 : Nat)).nodes,
        ∀ written ∈ n.self.mentioned, OnOneLine written) ∧
      (arrayError (.checkerFailed none) (10 ^ 5000 : Nat) : Problem).text "" =
        .error .digitLimit := by
  constructor
  · have hreason : OnOneLine (.ok "False") := ⟨"False", rfl, by decide⟩
    generalize ((10 ^ 5000 : Nat) : Int) = i
    simp [nodes, Node.under, mentioned, hreason]
  · exact text_of_long_index (Check.le_natAbs_pow (by decide)) _ _

end ShapeCheck.Mismatch
