import ShapeCheck.Proofs.MergeLaws
import ShapeCheck.Session

/-!
# Joining shapes

Shapes that are mappings are joined by merging their entries in order.  A key keeps the place
and the form in which it first came up, and has the item of the last shape that declares it.
A single shape is joined to itself, without a copy; its entries are what merging would make
of it, so that it makes no difference in which groups shapes are joined (`join_merges`).
-/

namespace ShapeCheck

namespace Value

variable {K : Value → Prop} {shape : Value} {shapes : List Value}
  {entries : List (Value × Value)} {parts : List (List (Value × Value))}

/-- A mapping, of any kind, with the given entries. -/
inductive MappingOf : Value → List (Value × Value) → Prop
  | intro (mark : Nat) (kind : MappingKind) (entries : List (Value × Value)) :
      MappingOf (mapping mark kind entries) entries

theorem MappingOf.unique {entries' : List (Value × Value)} (h : MappingOf shape entries)
    (h' : MappingOf shape entries') : entries = entries' := by
  cases h
  cases h'
  rfl

/-- What becomes of the entries of several mappings, one after another, when they are
merged. -/
structure Merged (K : Value → Prop) (parts : List (List (Value × Value)))
    (entries : List (Value × Value)) : Prop where
  /-- The keys are those of all mappings, without any that came up before. -/
  keys : entries.map Prod.fst = distinct (parts.flatten.map Prod.fst)
  /-- No two keys are the same. -/
  wellKeyed : (dict entries).WellKeyed K
  declares_eq {key : Value} (hkey : IsKey K key) :
    declares entries key = parts.any (declares · key)
  /-- An entry has the item of the last mapping that declares its key. -/
  item : ∀ e ∈ entries, ∃ before part after, parts = before ++ part :: after ∧
    HasEntry part e.1 e.2 ∧ ∀ later ∈ after, declares later e.1 = false

theorem collectEntries_flatten_concat (parts : List (List (Value × Value)))
    (last : List (Value × Value)) :
    collectEntries (parts ++ [last]).flatten =
      mergeEntries (collectEntries parts.flatten) last := by
  rw [List.flatten_append, List.flatten_singleton, collectEntries, mergeEntries_append]
  rfl

section

variable (hK : Coherent K) (hparts : ∀ part ∈ parts, (dict part).WellKeyed K)

include hparts

theorem isKey_of_mem_flatten : ∀ e ∈ parts.flatten, IsKey K e.1 := by
  intro e he
  obtain ⟨part, hpart, he⟩ := List.mem_flatten.mp he
  exact (hparts part hpart).1 e he

theorem collectEntries_flatten_wellKeyed : (dict (collectEntries parts.flatten)).WellKeyed K :=
  collectEntries_wellKeyed (isKey_of_mem_flatten hparts)

include hK

theorem exists_last_of_mem_collectEntries {e : Value × Value}
    (he : e ∈ collectEntries parts.flatten) :
    ∃ before part after, parts = before ++ part :: after ∧
      HasEntry part e.1 e.2 ∧ ∀ later ∈ after, declares later e.1 = false := by
  induction parts using List.reverseRecOn with
  | nil => cases he
  | append_singleton parts last ih =>
      rw [List.forall_mem_append, List.forall_mem_singleton] at hparts
      rw [collectEntries_flatten_concat] at he
      rcases hasEntry_or_undeclared hK (collectEntries_flatten_wellKeyed hparts.1) hparts.2 he with
        hlast | ⟨he, hundeclared⟩
      · exact ⟨parts, last, [], rfl, hlast, by simp⟩
      · obtain ⟨before, part, after, rfl, hentry, hafter⟩ := ih hparts.1 he
        refine ⟨before, part, after ++ [last], by simp, hentry, ?_⟩
        exact List.forall_mem_append.mpr ⟨hafter, List.forall_mem_singleton.mpr hundeclared⟩

theorem collectEntries_flatten_merged : Merged K parts (collectEntries parts.flatten) where
  keys := map_fst_collectEntries
  wellKeyed := collectEntries_flatten_wellKeyed hparts
  declares_eq hkey := by
    have hkeys := isKey_of_mem_flatten hparts
    rw [collectEntries, declares_mergeEntries hK (by simp) hkeys hkey]
    simp [declares, List.any_flatten]
  item _ he := exists_last_of_mem_collectEntries hK hparts he

end

/-- It makes no difference whether all mappings are merged at once or group by group. -/
theorem collectEntries_groups (hK : Coherent K) {groups : List (List (List (Value × Value)))}
    (hgroups : ∀ parts ∈ groups, ∀ part ∈ parts, (dict part).WellKeyed K) :
    collectEntries (groups.map fun parts => collectEntries parts.flatten).flatten =
      collectEntries groups.flatten.flatten := by
  have hkeys : ∀ pairs ∈ groups.map List.flatten, ∀ p ∈ pairs, IsKey K p.1 := by
    intro pairs hpairs
    obtain ⟨parts, hmem, rfl⟩ := List.mem_map.mp hpairs
    exact isKey_of_mem_flatten (hgroups parts hmem)
  calc collectEntries (groups.map fun parts => collectEntries parts.flatten).flatten
      = collectEntries ((groups.map List.flatten).map collectEntries).flatten := by
        rw [List.map_map]
        rfl
    _ = collectEntries (groups.map List.flatten).flatten :=
        mergeEntries_groups hK (by simp) hkeys
    _ = collectEntries groups.flatten.flatten := by rw [List.flatten_flatten]

/-! ## Joined shapes -/

theorem mergeShapes_eq (hshapes : List.Forall₂ MappingOf shapes parts) :
    Schema.mergeShapes shapes = .ok (dict (collectEntries parts.flatten)) := by
  have hfold : ∀ merged, shapes.foldlM (fun merged shape => do
      return mergeEntries merged (← shape.entriesOf)) merged =
        (.ok (mergeEntries merged parts.flatten) : Except Fault _) := by
    induction hshapes with
    | nil => exact fun merged => rfl
    | @cons shape part shapes parts hshape _ ih =>
        intro merged
        obtain ⟨mark, kind, part⟩ := hshape
        rw [List.flatten_cons, mergeEntries_append]
        exact ih (mergeEntries merged part)
  rw [Schema.mergeShapes, hfold]
  rfl

end Value

namespace Session

open Value

variable {K : Value → Prop} {session : Session} {mark : Nat} {kind : SequenceKind}
  {shapes : List Value} {entries : List (Value × Value)} {parts : List (List (Value × Value))}

/-- Joining shapes in a session answers with a mapping of the given entries, and leaves all
that there is in the session as it was. -/
structure Joins (session : Session) (shapes joined : Value) (entries : List (Value × Value)) :
    Prop where
  run : ∃ session', Session.join shapes session = (.ok joined, session') ∧
    session'.named = session.named ∧ session'.world = session.world
  entries : MappingOf joined entries

theorem join_single (session : Session) (mark : Nat) (kind : SequenceKind) (shape : Value) :
    Session.join (.sequence mark kind [shape]) session = (.ok shape, session) := rfl

theorem join_of_length_ne_one (session : Session) (mark : Nat) (kind : SequenceKind)
    (hlength : shapes.length ≠ 1) (hshapes : List.Forall₂ MappingOf shapes parts) :
    Session.join (.sequence mark kind shapes) session =
      (.ok (.mapping session.nextMark .dict (collectEntries parts.flatten)),
        { session with nextMark := session.nextMark + 1 }) := by
  have hjoin : Schema.join (.sequence mark kind shapes) =
      if shapes.length = 1 then (sequence mark kind shapes).subscript (.int 0)
      else Schema.mergeShapes shapes := rfl
  rw [if_neg hlength, mergeShapes_eq hshapes] at hjoin
  have hrun : Session.join (.sequence mark kind shapes) =
      (Session.lift (Schema.join (.sequence mark kind shapes)) >>= fun joined =>
        if shapes.length = 1 then pure joined else Session.new joined) := rfl
  simp only [hrun, hjoin, if_neg hlength]
  rfl

/-- Whatever number of shapes there is, they are joined to a mapping of their merged
entries. -/
theorem exists_joins (hK : Coherent K) (session : Session) (mark : Nat) (kind : SequenceKind)
    (hshapes : List.Forall₂ MappingOf shapes parts)
    (hparts : ∀ part ∈ parts, (dict part).WellKeyed K) :
    ∃ joined, Joins session (.sequence mark kind shapes) joined (collectEntries parts.flatten) := by
  by_cases hlength : shapes.length = 1
  · obtain ⟨shape, rfl⟩ := List.length_eq_one_iff.mp hlength
    obtain ⟨part, rest, hshape, hrest, rfl⟩ := List.forall₂_cons_left_iff.mp hshapes
    obtain rfl := List.forall₂_nil_left_iff.mp hrest
    refine ⟨shape, ⟨session, join_single session mark kind shape, rfl, rfl⟩, ?_⟩
    rw [List.flatten_singleton, collectEntries_eq hK (hparts part List.mem_cons_self)]
    exact hshape
  · exact ⟨_, ⟨_, join_of_length_ne_one session mark kind hlength hshapes, rfl, rfl⟩, .intro ..⟩

/-- Shapes are joined to nothing else. -/
theorem Joins.entries_eq (hK : Coherent K) {joined : Value}
    (h : Joins session (.sequence mark kind shapes) joined entries)
    (hshapes : List.Forall₂ MappingOf shapes parts)
    (hparts : ∀ part ∈ parts, (dict part).WellKeyed K) :
    entries = collectEntries parts.flatten := by
  obtain ⟨joined', ⟨_, hrun', -, -⟩, hentries'⟩ :=
    exists_joins hK session mark kind hshapes hparts
  obtain ⟨⟨_, hrun, -, -⟩, hentries⟩ := h
  have hanswer := congrArg Prod.fst (hrun.symm.trans hrun')
  obtain rfl : joined = joined' := Except.ok.inj hanswer
  exact hentries.unique hentries'

/-- What shapes are joined to in some session. -/
def JoinedFrom (shapes : List Value) (joined : Value) : Prop :=
  ∃ session mark kind entries, Joins session (.sequence mark kind shapes) joined entries

theorem joined_mappings (hK : Coherent K) {groups : List (List Value)} {joins : List Value}
    {groupParts : List (List (List (Value × Value)))}
    (hgroups : List.Forall₂ (List.Forall₂ MappingOf) groups groupParts)
    (hparts : ∀ parts ∈ groupParts, ∀ part ∈ parts, (dict part).WellKeyed K)
    (hjoins : List.Forall₂ JoinedFrom groups joins) :
    List.Forall₂ MappingOf joins
      (groupParts.map fun parts => collectEntries parts.flatten) := by
  induction hgroups generalizing joins with
  | nil =>
      obtain rfl := List.forall₂_nil_left_iff.mp hjoins
      exact .nil
  | @cons group parts groups groupParts hgroup _ ih =>
      rw [List.forall_mem_cons] at hparts
      obtain ⟨joined, joins, ⟨session, mark, kind, entries, hjoined⟩, hrest, rfl⟩ :=
        List.forall₂_cons_left_iff.mp hjoins
      have hentries := hjoined.entries
      rw [hjoined.entries_eq hK hgroup hparts.1] at hentries
      exact .cons hentries (ih hparts.2 hrest)

/-- Joined mappings are merged in order, the last one deciding on shared keys, and it makes no
difference whether they are joined at once or group by group. -/
theorem join_merges (hK : Coherent K) :
    (∀ session mark kind shapes parts, List.Forall₂ MappingOf shapes parts →
      (∀ part ∈ parts, (dict part).WellKeyed K) →
      ∃ joined entries, Joins session (.sequence mark kind shapes) joined entries ∧
        Merged K parts entries) ∧
    ∀ groups groupParts joins, List.Forall₂ (List.Forall₂ MappingOf) groups groupParts →
      (∀ parts ∈ groupParts, ∀ part ∈ parts, (dict part).WellKeyed K) →
      List.Forall₂ JoinedFrom groups joins →
      ∀ session session' mark mark' kind kind', ∃ joined joined' entries,
        Joins session (.sequence mark kind joins) joined entries ∧
          Joins session' (.sequence mark' kind' groups.flatten) joined' entries := by
  constructor
  · intro session mark kind shapes parts hshapes hparts
    obtain ⟨joined, hjoined⟩ := exists_joins hK session mark kind hshapes hparts
    exact ⟨joined, _, hjoined, collectEntries_flatten_merged hK hparts⟩
  · intro groups groupParts joins hgroups hparts hjoins session session' mark mark' kind kind'
    have hshapes : List.Forall₂ MappingOf groups.flatten groupParts.flatten :=
      List.rel_flatten hgroups
    have hkeyed : ∀ part ∈ groupParts.flatten, (dict part).WellKeyed K := by
      intro part hpart
      obtain ⟨parts, hmem, hpart⟩ := List.mem_flatten.mp hpart
      exact hparts parts hmem part hpart
    have hmerged : ∀ part ∈ groupParts.map fun parts => collectEntries parts.flatten,
        (dict part).WellKeyed K := by
      intro part hpart
      obtain ⟨parts, hmem, rfl⟩ := List.mem_map.mp hpart
      exact collectEntries_flatten_wellKeyed (hparts parts hmem)
    obtain ⟨joined, hjoined⟩ := exists_joins hK session mark kind
      (joined_mappings hK hgroups hparts hjoins) hmerged
    obtain ⟨joined', hjoined'⟩ := exists_joins hK session' mark' kind' hshapes hkeyed
    rw [← collectEntries_groups hK hparts] at hjoined'
    exact ⟨joined, joined', _, hjoined, hjoined'⟩

/-- A number under an integer. -/
def numberPart : List (Value × Value) := [(.int 1, Schema.ofFamily .number)]

/-- A text under the truth value that is the same key, and another text. -/
def textPart : List (Value × Value) :=
  [(.bool true, Schema.ofFamily .string), (.text "a", Schema.ofFamily .string)]

/-- The text is kept under the integer, where the number was. -/
example : collectEntries [numberPart, textPart].flatten =
    [(.int 1, Schema.ofFamily .string), (.text "a", Schema.ofFamily .string)] := rfl

/-- Two mappings are joined at once, or as groups of their own next to an empty one. -/
theorem join_merges_two :
    let session := Session.start "" ⟨"", ""⟩
    let store : Nat → Value := fun _ => .null
    (∃ joined entries, Joins session (.list [.dict numberPart, .dict textPart]) joined entries ∧
      Merged (Stored store) [numberPart, textPart] entries) ∧
    ∃ joined joined' entries,
      Joins session (.list [.dict numberPart, .mapping 1 .dict [], .dict textPart]) joined entries ∧
        Joins session (.list [.dict numberPart, .dict textPart]) joined' entries := by
  intro session store
  have hnumber : (dict numberPart).WellKeyed (Stored store) :=
    ⟨List.forall_mem_singleton.mpr ⟨.atom, rfl⟩, by decide⟩
  have htext : (dict textPart).WellKeyed (Stored store) :=
    ⟨List.forall_mem_cons.mpr ⟨⟨.atom, rfl⟩, List.forall_mem_singleton.mpr ⟨.atom, rfl⟩⟩, by decide⟩
  have hgroups : List.Forall₂ (List.Forall₂ MappingOf)
      [[.dict numberPart], [], [.dict textPart]] [[numberPart], [], [textPart]] :=
    .cons (.cons (.intro ..) .nil) (.cons .nil (.cons (.cons (.intro ..) .nil) .nil))
  have hjoins : List.Forall₂ JoinedFrom [[.dict numberPart], [], [.dict textPart]]
      [.dict numberPart, .mapping 1 .dict [], .dict textPart] := by
    refine .cons ?_ (.cons ?_ (.cons ?_ .nil))
    · exact ⟨session, 0, .list, _, ⟨session, rfl, rfl, rfl⟩, .intro ..⟩
    · exact ⟨session, 0, .list, _, ⟨_, rfl, rfl, rfl⟩, .intro ..⟩
    · exact ⟨session, 0, .list, _, ⟨session, rfl, rfl, rfl⟩, .intro ..⟩
  obtain ⟨hmerges, hregroups⟩ := join_merges (stored_coherent store)
  refine ⟨hmerges session 0 .list _ _ ?_ ?_, ?_⟩
  · exact .cons (.intro ..) (.cons (.intro ..) .nil)
  · exact List.forall_mem_cons.mpr ⟨hnumber, List.forall_mem_singleton.mpr htext⟩
  · exact hregroups _ _ _ hgroups (by simp [hnumber, htext]) hjoins session session 0 0 .list .list

end Session

end ShapeCheck
