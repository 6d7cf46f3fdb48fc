import Narrative.Document.Outline
import Narrative.Proofs.Display

/-!
What an outline tells. A text ends where its quotation is closed, a guard at its bracket, a
directive and a branch at the parenthesis that belongs to it, and what comes next is told by its
first sign. So items are read one after the other without looking ahead, whatever follows them, and
two trees with one outline differ in nothing that an outline shows.
-/

set_option autoImplicit false

namespace Narrative

/-! ### What an outline shows -/

/-- A guard without its place. -/
def Guard.bare (guard : Guard) : Guard := { guard with span := default }

/-- The plainest heading with a guard or without. -/
def Heading.ofGuard? : Option Guard → Heading
  | some guard => .condition guard
  | Option.none => .none

/-- A heading of which only the guard is kept. -/
def Heading.bare (heading : Heading) : Heading := ofGuard? (heading.guard?.map Guard.bare)

mutual

/-- A node of which texts, kinds and guards are kept, and neither identities, places and layouts nor
how a heading writes its kind. -/
def Node.bare : Node → Node
  | .text content => .text content
  | .directive value => .directive value.bare

def Directive.bare : Directive → Directive
  | ⟨_, kind, heading, _, branches, _⟩ =>
    ⟨"", kind, heading.bare, .inline, bareBranches branches, default⟩

def bareBranches : List Branch → List Branch
  | [] => []
  | branch :: rest => branch.bare :: bareBranches rest

def Branch.bare : Branch → Branch
  | ⟨guard, content, _⟩ => ⟨guard.map Guard.bare, bareNodes content, default⟩

def bareNodes : List Node → List Node
  | [] => []
  | node :: rest => node.bare :: bareNodes rest

end

mutual

/-- The guards in a node, of headings and of branches at every depth. -/
def Node.guards : Node → List Guard
  | .text _ => []
  | .directive value => value.guards

def Directive.guards : Directive → List Guard
  | ⟨_, _, heading, _, branches, _⟩ => heading.guard?.toList ++ guardsOfBranches branches

def guardsOfBranches : List Branch → List Guard
  | [] => []
  | branch :: rest => branch.guards ++ guardsOfBranches rest

def Branch.guards : Branch → List Guard
  | ⟨guard, content, _⟩ => guard.toList ++ guardsOfNodes content

/-- The guards in nodes, in the order of the tree. -/
def guardsOfNodes : List Node → List Guard
  | [] => []
  | node :: rest => node.guards ++ guardsOfNodes rest

end

/-- No guard has in it the bracket that closes a guard in an outline. -/
def Bracketless (guards : List Guard) : Prop := ∀ guard ∈ guards, ']' ∉ guard.text.toList

instance : DecidablePred Bracketless :=
  fun guards => inferInstanceAs (Decidable (∀ guard ∈ guards, ']' ∉ guard.text.toList))

theorem bracketless_append {first second : List Guard} :
    Bracketless (first ++ second) ↔ Bracketless first ∧ Bracketless second :=
  List.forall_mem_append

theorem outlineOfNodes_cons_cons (node next : Node) (rest : List Node) :
    outlineOfNodes (node :: next :: rest) =
      node.outline ++ " " ++ outlineOfNodes (next :: rest) := by
  rw [outlineOfNodes]
  exact List.cons_ne_nil _ _

theorem Guard.outline_bare (guard : Guard) : guard.bare.outline = guard.outline := rfl

mutual

/-- What is not kept has no part in an outline. -/
theorem Node.outline_bare (node : Node) : node.bare.outline = node.outline := by
  match node with
  | .text content => rw [Node.bare]
  | .directive value => rw [Node.bare, Node.outline, Node.outline, Directive.outline_bare value]

theorem Directive.outline_bare (directive : Directive) :
    directive.bare.outline = directive.outline := by
  match directive with
  | ⟨identity, kind, heading, layout, branches, span⟩ =>
    rw [Directive.bare, Directive.outline, Directive.outline, outlineOfBranches_bare branches]
    cases heading <;> rfl

theorem outlineOfBranches_bare (branches : List Branch) :
    outlineOfBranches (bareBranches branches) = outlineOfBranches branches := by
  match branches with
  | [] => rw [bareBranches]
  | branch :: rest =>
    rw [bareBranches, outlineOfBranches, outlineOfBranches, Branch.outline_bare branch,
      outlineOfBranches_bare rest]

theorem Branch.outline_bare (branch : Branch) : branch.bare.outline = branch.outline := by
  match branch with
  | ⟨none, content, span⟩ =>
    rw [Branch.bare, Option.map_none, Branch.outline, Branch.outline, outlineOfNodes_bare content]
  | ⟨some guard, content, span⟩ =>
    have empty : (bareNodes content).isEmpty = content.isEmpty := by
      cases content with
      | nil => rw [bareNodes]
      | cons node rest =>
        rw [bareNodes]
        rfl
    rw [Branch.bare, Option.map_some, Branch.outline, Branch.outline, outlineOfNodes_bare content,
      empty, Guard.outline_bare]

theorem outlineOfNodes_bare (nodes : List Node) :
    outlineOfNodes (bareNodes nodes) = outlineOfNodes nodes := by
  match nodes with
  | [] => rw [bareNodes]
  | [node] => rw [bareNodes, bareNodes, outlineOfNodes, outlineOfNodes, Node.outline_bare node]
  | node :: next :: rest =>
    have behind := outlineOfNodes_bare (next :: rest)
    rw [bareNodes] at behind
    rw [bareNodes, bareNodes, outlineOfNodes_cons_cons, outlineOfNodes_cons_cons, behind,
      Node.outline_bare node]

end

/-! ### Items that tell where they end -/

section

variable {α β : Type}

/-- What is written for an item tells what is kept of it and where it ends, whatever follows. -/
def Delimited (write : α → String) (keep : α → β) (guards : α → List Guard) (item : α) : Prop :=
  ∀ other, Bracketless (guards other) → ∀ rest back,
    (write item).toList ++ rest = (write other).toList ++ back →
      keep item = keep other ∧ rest = back

/-- Items as they are written one after the other, each after a space. -/
def spaced (write : α → String) (items : List α) : List Char :=
  items.flatMap (fun item => ' ' :: (write item).toList)

variable {write : α → String} {keep : α → β} {guards : α → List Guard}

theorem spaced_cons_append (write : α → String) (item : α) (items : List α) (rest : List Char) :
    spaced write (item :: items) ++ rest =
      ' ' :: ((write item).toList ++ (spaced write items ++ rest)) := by
  simp only [spaced, List.flatMap_cons, List.cons_append, List.append_assoc]

/-- Items that tell where they end do so one after the other, up to what begins without a space. -/
theorem spaced_append_inj {items others : List α} {rest back : List Char}
    (delimited : ∀ item ∈ items, Delimited write keep guards item)
    (bracketless : ∀ other ∈ others, Bracketless (guards other))
    (ends : rest.head? ≠ some ' ') (endsToo : back.head? ≠ some ' ')
    (same : spaced write items ++ rest = spaced write others ++ back) :
    items.map keep = others.map keep ∧ rest = back := by
  induction items generalizing others with
  | nil =>
    cases others with
    | nil => exact ⟨rfl, same⟩
    | cons other others => exact absurd (congrArg List.head? same) ends
  | cons item items ih =>
    cases others with
    | nil => exact absurd (congrArg List.head? same).symm endsToo
    | cons other others =>
      rw [spaced_cons_append, spaced_cons_append] at same
      obtain ⟨kept, behind⟩ := delimited item List.mem_cons_self other
        (bracketless other List.mem_cons_self) _ _ (List.cons.inj same).2
      obtain ⟨others, ending⟩ := ih (fun item member => delimited item (.tail _ member))
        (fun other member => bracketless other (.tail _ member)) behind
      exact ⟨by rw [List.map_cons, List.map_cons, kept, others], ending⟩

end

/-! ### Outlines as lists of characters -/

theorem Guard.toList_outline (guard : Guard) :
    guard.outline.toList = '[' :: (guard.text.toList ++ [']']) := by
  rw [outline, String.toList_append, String.toList_append]
  rfl

theorem Node.toList_outline_text (content : String) :
    (Node.text content).outline.toList = Quoted.chars '"' content.toList := by
  rw [outline, Quoted.text, String.toList_ofList]

theorem toList_outlineOfBranches (branches : List Branch) :
    (outlineOfBranches branches).toList = spaced Branch.outline branches := by
  induction branches with
  | nil =>
    rw [outlineOfBranches]
    rfl
  | cons branch rest ih =>
    rw [outlineOfBranches, String.toList_append, String.toList_append, ih]
    rfl

theorem Directive.toList_outline (directive : Directive) :
    directive.outline.toList = '(' :: (directive.kind.word.toList ++
      (spaced Guard.outline directive.guard?.toList ++
        (spaced Branch.outline directive.branches ++ [')']))) := by
  obtain ⟨identity, kind, heading, layout, branches, span⟩ := directive
  rw [outline, ← toList_outlineOfBranches]
  simp only [String.toList_append, List.append_assoc]
  cases heading <;> simp [guard?, Heading.guard?, spaced]

/-- The nodes of a list stand one after the other, with no space before the first one. -/
theorem toList_outlineOfNodes_cons (node : Node) (rest : List Node) :
    (outlineOfNodes (node :: rest)).toList = node.outline.toList ++ spaced Node.outline rest := by
  induction rest generalizing node with
  | nil =>
    rw [outlineOfNodes]
    exact (List.append_nil _).symm
  | cons next rest ih =>
    rw [outlineOfNodes_cons_cons, String.toList_append, String.toList_append, ih,
      List.append_assoc]
    rfl

theorem Branch.toList_outline_unguarded (content : List Node) (span : Span) :
    (Branch.mk none content span).outline.toList =
      '(' :: ((outlineOfNodes content).toList ++ [')']) := by
  rw [outline, String.toList_append, String.toList_append]
  rfl

theorem Branch.toList_outline_guarded (guard : Guard) (content : List Node) (span : Span) :
    (Branch.mk (some guard) content span).outline.toList =
      '(' :: (guard.outline.toList ++ (spaced Node.outline content ++ [')'])) := by
  rw [outline]
  simp only [String.toList_append, List.append_assoc]
  cases content with
  | nil =>
    rw [outlineOfNodes]
    rfl
  | cons node rest =>
    rw [toList_outlineOfNodes_cons, spaced_cons_append, List.append_assoc,
      if_neg (show ¬ (node :: rest).isEmpty = true by simp)]
    rfl

/-- A node begins with a quotation mark or a parenthesis. -/
theorem Node.exists_outline_eq_cons (node : Node) :
    ∃ c more, node.outline.toList = c :: more ∧ (c = '"' ∨ c = '(') := by
  cases node with
  | text content => exact ⟨_, _, toList_outline_text content, Or.inl rfl⟩
  | directive value => exact ⟨_, _, value.toList_outline, Or.inr rfl⟩

theorem Branch.exists_outline_eq_cons (branch : Branch) :
    ∃ more, branch.outline.toList = '(' :: more := by
  obtain ⟨guard, content, span⟩ := branch
  cases guard with
  | none => exact ⟨_, toList_outline_unguarded content span⟩
  | some guard => exact ⟨_, toList_outline_guarded guard content span⟩

/-! ### Nodes, directives and branches -/

theorem bareNodes_eq_map (nodes : List Node) : bareNodes nodes = nodes.map Node.bare := by
  induction nodes with
  | nil => rw [bareNodes, List.map_nil]
  | cons node rest ih => rw [bareNodes, List.map_cons, ih]

theorem bareBranches_eq_map (branches : List Branch) :
    bareBranches branches = branches.map Branch.bare := by
  induction branches with
  | nil => rw [bareBranches, List.map_nil]
  | cons branch rest ih => rw [bareBranches, List.map_cons, ih]

theorem bracketless_guardsOfNodes {nodes : List Node} :
    Bracketless (guardsOfNodes nodes) ↔ ∀ node ∈ nodes, Bracketless node.guards := by
  induction nodes with
  | nil => simp [guardsOfNodes, Bracketless]
  | cons node rest ih => rw [guardsOfNodes, bracketless_append, ih, List.forall_mem_cons]

theorem bracketless_guardsOfBranches {branches : List Branch} :
    Bracketless (guardsOfBranches branches) ↔ ∀ branch ∈ branches, Bracketless branch.guards := by
  induction branches with
  | nil => simp [guardsOfBranches, Bracketless]
  | cons branch rest ih => rw [guardsOfBranches, bracketless_append, ih, List.forall_mem_cons]

section

variable {rest back : List Char}

/-- A guard ends at its bracket. -/
theorem Guard.outline_append_inj {guard other : Guard} (closed : ']' ∉ guard.text.toList)
    (closedToo : ']' ∉ other.text.toList)
    (same : guard.outline.toList ++ rest = other.outline.toList ++ back) :
    guard.bare = other.bare ∧ rest = back := by
  simp only [toList_outline, List.cons_append, List.append_assoc, List.cons.injEq, true_and] at same
  have plain {text : List Char} (closed : ']' ∉ text) : ∀ c ∈ text, (c != ']') = true := by
    intro c member
    rw [bne_iff_ne]
    rintro rfl
    exact closed member
  obtain ⟨texts, ends⟩ := run_inj (plain closed) (plain closedToo) (by simp) (by simp) same
  refine ⟨?_, (List.cons.inj ends).2⟩
  rw [bare, bare, String.toList_inj.1 texts]

/-- Where a heading may show a guard, what comes next tells whether it does. -/
theorem Guard.spaced_append_inj {guard? other? : Option Guard} (closed : Bracketless guard?.toList)
    (closedToo : Bracketless other?.toList) (ends : ∀ more, rest ≠ ' ' :: '[' :: more)
    (endsToo : ∀ more, back ≠ ' ' :: '[' :: more)
    (same : spaced outline guard?.toList ++ rest = spaced outline other?.toList ++ back) :
    guard?.map bare = other?.map bare ∧ rest = back := by
  cases guard? with
  | none =>
    cases other? with
    | none => exact ⟨rfl, same⟩
    | some other =>
      rw [Option.toList_some, spaced_cons_append, toList_outline] at same
      exact absurd same (ends _)
  | some guard =>
    rw [Option.toList_some, spaced_cons_append] at same
    cases other? with
    | none =>
      rw [toList_outline] at same
      exact absurd same.symm (endsToo _)
    | some other =>
      rw [Option.toList_some, spaced_cons_append] at same
      obtain ⟨kept, behind⟩ := outline_append_inj (closed guard List.mem_cons_self)
        (closedToo other List.mem_cons_self) (List.cons.inj same).2
      exact ⟨congrArg some kept, behind⟩

theorem Kind.word_inj {first second : Kind} (same : first.word = second.word) :
    first = second := by
  have apart (kind : Discipline) : Kind.conditional.word ≠ (Kind.list kind).word := by
    cases kind <;> decide
  cases first with
  | conditional =>
    cases second with
    | conditional => rfl
    | list other => exact absurd same (apart other)
  | list kind =>
    cases second with
    | conditional => exact absurd same.symm (apart kind)
    | list other =>
      have read := congrArg Discipline.ofWord? (show kind.word = other.word from same)
      rw [Discipline.ofWord?_word, Discipline.ofWord?_word] at read
      rw [Option.some.inj read]

/-- The word for a kind ends at a space or a parenthesis. -/
theorem Kind.word_append_inj {kind other : Kind}
    (ends : ∀ c ∈ rest.head?, c = ' ' ∨ c = ')') (endsToo : ∀ c ∈ back.head?, c = ' ' ∨ c = ')')
    (same : kind.word.toList ++ rest = other.word.toList ++ back) : kind = other ∧ rest = back := by
  have letters (kind : Kind) : ∀ c ∈ kind.word.toList, c.isAlpha = true := by
    rw [← List.all_eq_true]
    cases kind with
    | conditional => decide
    | list discipline => cases discipline <;> decide
  have stops {text : List Char} (ends : ∀ c ∈ text.head?, c = ' ' ∨ c = ')') :
      Stops Char.isAlpha text := by
    intro c head
    rcases ends c head with rfl | rfl <;> rfl
  obtain ⟨words, behind⟩ := run_inj (letters kind) (letters other) (stops ends) (stops endsToo) same
  exact ⟨word_inj (String.toList_inj.1 words), behind⟩

/-- Contents end at the parenthesis that closes what they are in, or with the text. -/
theorem outlineOfNodes_append_inj {nodes others : List Node}
    (delimited : ∀ node ∈ nodes, Delimited Node.outline Node.bare Node.guards node)
    (closed : Bracketless (guardsOfNodes others)) (ends : ∀ c ∈ rest.head?, c = ')')
    (endsToo : ∀ c ∈ back.head?, c = ')')
    (same : (outlineOfNodes nodes).toList ++ rest = (outlineOfNodes others).toList ++ back) :
    bareNodes nodes = bareNodes others ∧ rest = back := by
  have begun (node : Node) (nodes : List Node) (rest : List Char) :
      ∀ text, (∀ c ∈ text.head?, c = ')') →
        text ≠ (outlineOfNodes (node :: nodes)).toList ++ rest := by
    rintro _ ends rfl
    obtain ⟨c, more, here, sign⟩ := node.exists_outline_eq_cons
    rw [toList_outlineOfNodes_cons, here] at ends
    obtain rfl := ends c rfl
    revert sign
    decide
  cases nodes with
  | nil =>
    rw [outlineOfNodes] at same
    cases others with
    | nil =>
      rw [outlineOfNodes] at same
      exact ⟨rfl, same⟩
    | cons other others => exact absurd same (begun other others back rest ends)
  | cons node nodes =>
    cases others with
    | nil =>
      rw [outlineOfNodes] at same
      exact absurd same.symm (begun node nodes rest back endsToo)
    | cons other others =>
      have apart {text : List Char} (ends : ∀ c ∈ text.head?, c = ')') :
          text.head? ≠ some ' ' := fun head => absurd (ends ' ' head) (by decide)
      simp only [toList_outlineOfNodes_cons, List.append_assoc] at same
      have all := congrArg (List.cons ' ') same
      rw [← spaced_cons_append, ← spaced_cons_append] at all
      rw [bareNodes_eq_map, bareNodes_eq_map]
      exact spaced_append_inj delimited (bracketless_guardsOfNodes.1 closed) (apart ends)
        (apart endsToo) all

end

/-- Nodes in a branch do not begin as guards do. -/
theorem outlineOfNodes_append_ne (nodes : List Node) (rest : List Char) (guard : Guard)
    (more : List Char) :
    (outlineOfNodes nodes).toList ++ ')' :: rest ≠ guard.outline.toList ++ more := by
  rw [Guard.toList_outline]
  cases nodes with
  | nil =>
    rw [outlineOfNodes]
    exact fun same => absurd (List.cons.inj same).1 (by decide)
  | cons node nodes =>
    obtain ⟨c, chars, here, sign⟩ := node.exists_outline_eq_cons
    rw [toList_outlineOfNodes_cons, here]
    intro same
    obtain rfl := (List.cons.inj same).1
    revert sign
    decide

/-- A branch tells where it ends if the nodes in it do. -/
theorem Branch.delimited_of_content {branch : Branch} (closed : Bracketless branch.guards)
    (content : ∀ node ∈ branch.content, Delimited Node.outline Node.bare Node.guards node) :
    Delimited outline bare guards branch := by
  intro other closedToo rest back same
  obtain ⟨guard, nodes, span⟩ := branch
  obtain ⟨guardToo, others, spanToo⟩ := other
  rw [guards, bracketless_append] at closed closedToo
  rw [bare, bare]
  cases guard with
  | none =>
    cases guardToo with
    | none =>
      simp only [toList_outline_unguarded, List.cons_append, List.append_assoc, List.cons.injEq,
        true_and, List.nil_append] at same
      obtain ⟨kept, behind⟩ := outlineOfNodes_append_inj content closedToo.2 (by simp) (by simp)
        same
      exact ⟨by rw [kept], (List.cons.inj behind).2⟩
    | some guardToo =>
      simp only [toList_outline_unguarded, toList_outline_guarded, List.cons_append,
        List.append_assoc, List.cons.injEq, true_and, List.nil_append] at same
      exact absurd same (outlineOfNodes_append_ne nodes rest guardToo _)
  | some guard =>
    cases guardToo with
    | none =>
      simp only [toList_outline_unguarded, toList_outline_guarded, List.cons_append,
        List.append_assoc, List.cons.injEq, true_and, List.nil_append] at same
      exact absurd same.symm (outlineOfNodes_append_ne others back guard _)
    | some guardToo =>
      simp only [toList_outline_guarded, List.cons_append, List.append_assoc, List.cons.injEq,
        true_and, List.nil_append] at same
      obtain ⟨guards, behind⟩ := Guard.outline_append_inj (closed.1 guard List.mem_cons_self)
        (closedToo.1 guardToo List.mem_cons_self) same
      obtain ⟨nodes, behind⟩ := spaced_append_inj content (bracketless_guardsOfNodes.1 closedToo.2)
        (by simp) (by simp) behind
      rw [← bareNodes_eq_map, ← bareNodes_eq_map] at nodes
      exact ⟨by rw [Option.map_some, Option.map_some, guards, nodes], (List.cons.inj behind).2⟩

theorem Directive.guards_eq (directive : Directive) :
    directive.guards = directive.guard?.toList ++ guardsOfBranches directive.branches := by
  obtain ⟨identity, kind, heading, layout, branches, span⟩ := directive
  rw [guards]
  rfl

theorem Directive.bare_eq (directive : Directive) :
    directive.bare = ⟨"", directive.kind, Heading.ofGuard? (directive.guard?.map Guard.bare),
      .inline, bareBranches directive.branches, default⟩ := by
  obtain ⟨identity, kind, heading, layout, branches, span⟩ := directive
  rw [bare]
  rfl

/-- Behind the heading of a directive come no guards but those of branches. -/
theorem spaced_branches_append_ne (branches : List Branch) (rest : List Char) :
    ∀ more, spaced Branch.outline branches ++ ')' :: rest ≠ ' ' :: '[' :: more := by
  intro more same
  cases branches with
  | nil => exact absurd (List.cons.inj same).1 (by decide)
  | cons branch branches =>
    obtain ⟨chars, here⟩ := branch.exists_outline_eq_cons
    rw [spaced_cons_append, here] at same
    exact absurd (List.cons.inj (List.cons.inj same).2).1 (by decide)

theorem head?_spaced_append (guard? : Option Guard) (branches : List Branch) (rest : List Char) :
    ∀ c ∈ (spaced Guard.outline guard?.toList ++
      (spaced Branch.outline branches ++ ')' :: rest)).head?, c = ' ' ∨ c = ')' := by
  cases guard? with
  | some guard =>
    rw [Option.toList_some, spaced_cons_append]
    simp
  | none =>
    cases branches with
    | nil => simp [spaced]
    | cons branch branches => simp [spaced]

/-- A directive tells where it ends if its branches do. -/
theorem Directive.delimited_of_branches {directive : Directive}
    (closed : Bracketless directive.guards)
    (branches : ∀ branch ∈ directive.branches,
      Delimited Branch.outline Branch.bare Branch.guards branch) :
    Delimited outline bare guards directive := by
  intro other closedToo rest back same
  rw [guards_eq, bracketless_append] at closed closedToo
  simp only [toList_outline, List.cons_append, List.append_assoc, List.cons.injEq, true_and,
    List.nil_append] at same
  obtain ⟨kinds, behind⟩ := Kind.word_append_inj (head?_spaced_append _ _ _)
    (head?_spaced_append _ _ _) same
  obtain ⟨guards, behind⟩ := Guard.spaced_append_inj closed.1 closedToo.1
    (spaced_branches_append_ne _ _) (spaced_branches_append_ne _ _) behind
  obtain ⟨branches, behind⟩ := spaced_append_inj branches
    (bracketless_guardsOfBranches.1 closedToo.2) (by simp) (by simp) behind
  rw [← bareBranches_eq_map, ← bareBranches_eq_map] at branches
  refine ⟨?_, (List.cons.inj behind).2⟩
  rw [bare_eq, bare_eq, kinds, guards, branches]

/-- A node tells where it ends if the directive that it is does. -/
theorem Node.delimited_of_directive {node : Node}
    (directive : ∀ value, node = .directive value →
      Delimited Directive.outline Directive.bare Directive.guards value) :
    Delimited outline bare guards node := by
  intro other closed rest back same
  cases node with
  | text content =>
    cases other with
    | text contentToo =>
      rw [toList_outline_text, toList_outline_text] at same
      obtain ⟨texts, behind⟩ := Quoted.chars_append_inj (by simp [Quoted.delimiters]) same
      exact ⟨by rw [String.toList_inj.1 texts], behind⟩
    | directive value =>
      rw [toList_outline_text, outline, Directive.toList_outline] at same
      exact absurd (List.cons.inj same).1 (by decide)
  | directive value =>
    cases other with
    | text content =>
      rw [toList_outline_text, outline, Directive.toList_outline] at same
      exact absurd (List.cons.inj same).1 (by decide)
    | directive valueToo =>
      rw [outline, outline] at same
      rw [guards] at closed
      obtain ⟨kept, behind⟩ := directive value rfl valueToo closed rest back same
      exact ⟨by rw [bare, bare, kept], behind⟩

mutual

theorem Node.delimited (node : Node) (closed : Bracketless node.guards) :
    Delimited Node.outline Node.bare Node.guards node := by
  apply Node.delimited_of_directive
  match node with
  | .text content => exact fun _ same => nomatch same
  | .directive value =>
    rintro _ ⟨rfl⟩
    rw [Node.guards] at closed
    exact value.delimited closed

theorem Directive.delimited (directive : Directive) (closed : Bracketless directive.guards) :
    Delimited Directive.outline Directive.bare Directive.guards directive := by
  match directive with
  | ⟨identity, kind, heading, layout, branches, span⟩ =>
    apply Directive.delimited_of_branches closed
    rw [Directive.guards, bracketless_append] at closed
    exact delimited_of_mem_branches branches closed.2

theorem delimited_of_mem_branches (branches : List Branch)
    (closed : Bracketless (guardsOfBranches branches)) :
    ∀ branch ∈ branches, Delimited Branch.outline Branch.bare Branch.guards branch := by
  match branches with
  | [] => exact fun _ member => absurd member List.not_mem_nil
  | branch :: rest =>
    rw [guardsOfBranches, bracketless_append] at closed
    rw [List.forall_mem_cons]
    exact ⟨branch.delimited closed.1, delimited_of_mem_branches rest closed.2⟩

theorem Branch.delimited (branch : Branch) (closed : Bracketless branch.guards) :
    Delimited Branch.outline Branch.bare Branch.guards branch := by
  match branch with
  | ⟨guard, content, span⟩ =>
    apply Branch.delimited_of_content closed
    rw [Branch.guards, bracketless_append] at closed
    exact delimited_of_mem_nodes content closed.2

/-- Every node without brackets in its guards tells where it ends. -/
theorem delimited_of_mem_nodes (nodes : List Node) (closed : Bracketless (guardsOfNodes nodes)) :
    ∀ node ∈ nodes, Delimited Node.outline Node.bare Node.guards node := by
  match nodes with
  | [] => exact fun _ member => absurd member List.not_mem_nil
  | node :: rest =>
    rw [guardsOfNodes, bracketless_append] at closed
    rw [List.forall_mem_cons]
    exact ⟨node.delimited closed.1, delimited_of_mem_nodes rest closed.2⟩

end

/-- **An outline determines the tree.** Two lists of nodes, in whose guards no bracket is closed,
have one outline exactly if they agree in texts, nesting, kinds and guards, and in the order of all
these. -/
theorem outlineOfNodes_eq_iff {nodes others : List Node}
    (closed : Bracketless (guardsOfNodes nodes)) (closedToo : Bracketless (guardsOfNodes others)) :
    outlineOfNodes nodes = outlineOfNodes others ↔ bareNodes nodes = bareNodes others := by
  constructor
  · intro same
    have chars := congrArg (fun text => text.toList ++ []) same
    exact (outlineOfNodes_append_inj (delimited_of_mem_nodes nodes closed) closedToo (by simp)
      (by simp) chars).1
  · intro same
    rw [← outlineOfNodes_bare nodes, ← outlineOfNodes_bare others, same]

/-- A list of which one branch is empty and the other one holds a conditional, as it may be read
from one line. -/
def nestedInline : List Node :=
  [.text "\"(a", .directive ⟨"doc@3", .list .cycle, .discipline .cycle, .inline,
    [⟨none, [], .ofBytes 4 5⟩,
      ⟨none, [.directive ⟨"doc@6", .conditional, .condition ⟨"b [c", .ofBytes 7 11⟩, .inline,
        [⟨none, [.text ")", .text ""], .ofBytes 12 13⟩], .ofBytes 6 14⟩], .ofBytes 6 14⟩],
    .ofBytes 3 15⟩]

/-- The same by hand: entries under a heading that says nothing, without names and places. -/
def nestedBlock : List Node :=
  [.text "\"(a", .directive ⟨"", .list .cycle, .none, .multiLine,
    [⟨none, [], default⟩,
      ⟨none, [.directive ⟨"", .conditional, .condition ⟨"b [c", default⟩, .multiLine,
        [⟨none, [.text ")", .text ""], default⟩], default⟩], default⟩], default⟩]

/-- The guard stands before the branch and not in the heading. -/
def nestedGuarded : List Node :=
  [.text "\"(a", .directive ⟨"", .list .cycle, .none, .multiLine,
    [⟨none, [], default⟩,
      ⟨none, [.directive ⟨"", .conditional, .none, .multiLine,
        [⟨some ⟨"b [c", default⟩, [.text ")", .text ""], default⟩], default⟩], default⟩], default⟩]

theorem outlineOfNodes_eq_iff_nested :
    outlineOfNodes nestedInline = outlineOfNodes nestedBlock ∧
      outlineOfNodes nestedBlock ≠ outlineOfNodes nestedGuarded := by
  have inline : Bracketless (guardsOfNodes nestedInline) := by decide +kernel
  have block : Bracketless (guardsOfNodes nestedBlock) := by decide +kernel
  have guarded : Bracketless (guardsOfNodes nestedGuarded) := by decide +kernel
  refine ⟨(outlineOfNodes_eq_iff inline block).2 rfl, ?_⟩
  rw [Ne, outlineOfNodes_eq_iff block guarded]
  intro same
  cases same

example : outlineOfNodes nestedInline =
    "\"\\\"(a\" (cycle () ((conditional [b [c] (\")\" \"\"))))" := by decide +kernel

end Narrative
