import Scriptlet.Proofs.Grammar.RoundTrip
import Scriptlet.Proofs.Tree.Coverage

/-!
# The source map of a script

The nodes of a script that was read remember where in the text they come from. The tokens of a text
stand one after the other, and the span of a node begins where one of its tokens begins and ends
where one of them ends. So a node has a piece of the text, which contains the pieces of its children
one after the other. Parentheses belong to no node, which is why a span need not begin with the
first token.

* `Node.MapsTo` — what is meant by the place of a node;
* `Placed` — tokens as they stand in a text, one after the other (`placed_of_lex`);
* `Occupies` — a span that begins and ends with tokens;
* `Lined` — trees next to one another in a text, with the two ways to make them the children of a
  node, `Lined.wrap` and `Lined.join`;
* `DerivesScript.lined` — the statements of a script stand in the text in order;
* `read_isMapped` — every node of a script that was read has its place in the text.
-/

namespace Scriptlet

/-! ### Slices between slices -/

namespace Source

variable {text part part' : String} {start stop start' stop' : Nat}

/-- What can be sliced ends inside the text. -/
private theorem stop_le_of_slice? (h : slice? text start stop = some part) :
    stop ≤ text.utf8ByteSize := by
  obtain ⟨before, after, rfl, rfl, rfl⟩ := slice?_eq_some_iff.1 h
  rw [String.utf8ByteSize_append, String.utf8ByteSize_append]
  exact Nat.le_add_right ..

/-- From the beginning of one slice to the end of another there is a slice, too. -/
private theorem exists_slice?_of_slice? (h : slice? text start stop = some part)
    (h' : slice? text start' stop' = some part') (hle : start ≤ stop') :
    ∃ whole, slice? text start stop' = some whole := by
  -- both ends are between characters
  unfold slice? at h h'
  split at h
  · next hfirst =>
    split at h'
    · next hlast => exact ⟨_, by rw [slice?, dif_pos ⟨hfirst.1, hlast.2⟩, if_pos hle]⟩
    · cases h'
  · cases h

end Source

/-! ### Places of nodes -/

/-- **What the text of a leaf looks like.** A variable is written as its name, an integer in decimal
and a string in quotes. -/
def Kind.SpelledAs (part : String) : Kind → Prop
  | .identifier name _ => part = name
  | .literal (.int n) => ∃ digits, part = String.ofList digits ∧ digits ≠ [] ∧
      (∀ d ∈ digits, d.isDigit) ∧ n.toInt = Nat.ofDigitChars 10 digits 0
  | .literal (.str text) => part = "\"" ++ text ++ "\""
  | _ => True

/-- The first node stands before the second one, and does not reach into it. -/
def Node.Before (m n : Node) : Prop :=
  ∃ s t, m.span = some s ∧ n.span = some t ∧ s.stop ≤ t.start

/-- **The node has a place in the source**: a nonempty piece of text between two characters, which
is the text of the node if it is a leaf, and contains the pieces of its children in order. -/
structure Node.MapsTo (source : String) (m : Node) (span : Span) (part : String) : Prop where
  span_eq : m.span = some span
  proper : span.start < span.stop
  le_size : span.stop.toNat ≤ source.utf8ByteSize
  slice : span.slice? source = some part
  spelled : m.kind.SpelledAs part
  nested : ∀ c ∈ m.children, ∃ inner, c.span = some inner ∧ inner.Inside span
  ordered : m.children.Pairwise Node.Before

/-- The node has some place in the source. -/
def Node.IsMapped (source : String) (m : Node) : Prop := ∃ span part, m.MapsTo source span part

namespace Grammar

/-! ### Tokens in order -/

/-- **The tokens of a text stand one after the other**, and none of them is empty. -/
private theorem ordered_of_lexFrom {start : Nat} {cs : List Char} {ls : List Lexeme}
    (h : lexFrom start cs = .ok ls) (hsize : start + Source.byteLength cs < UInt32.size) :
    (∀ l ∈ ls, start ≤ l.span.start.toNat ∧ l.span.start < l.span.stop) ∧
      ls.Pairwise fun a b => a.span.stop ≤ b.span.start := by
  -- along the text, with what is left of it bounding every offset
  fun_induction lexFrom start cs generalizing ls with
  | case1 =>
    cases h
    exact ⟨by simp, .nil⟩
  | case2 start c rest blank ih =>
    have hc := c.utf8Size_pos
    rw [Source.byteLength_cons] at hsize
    obtain ⟨hls, hapart⟩ := ih h (by omega)
    exact ⟨fun l hl => ⟨by have := (hls l hl).1; omega, (hls l hl).2⟩, hapart⟩
  | case3 start c rest _ token extra hscan stop =>
    rename_i ih
    have hc := c.utf8Size_pos
    -- the text is cut behind the token
    have hrest : Source.byteLength rest =
        Source.byteLength (rest.take extra) + Source.byteLength (rest.drop extra) := by
      rw [← Source.byteLength_append, List.take_append_drop]
    rw [Source.byteLength_cons] at hsize
    obtain ⟨more, hmore, hls⟩ := bind_eq_ok.1 h
    cases hls
    obtain ⟨hbehind, hapart⟩ := ih hmore (by omega)
    have hstart : start.toUInt32.toNat = start := UInt32.toNat_ofNat_of_lt' (by omega)
    have hstop : stop.toUInt32.toNat = stop := UInt32.toNat_ofNat_of_lt' (by omega)
    -- the token starts where it was found, is not empty, and ends before all later ones start
    refine ⟨List.forall_mem_cons.2 ⟨⟨?_, ?_⟩, ?_⟩, List.pairwise_cons.2 ⟨?_, hapart⟩⟩
    · exact hstart.ge
    · rw [UInt32.lt_iff_toNat_lt, hstart, hstop]
      omega
    · intro l hl
      exact ⟨by have := (hbehind l hl).1; omega, (hbehind l hl).2⟩
    · intro l hl
      rw [UInt32.le_iff_toNat_le, hstop]
      exact (hbehind l hl).1
  | case4 => cases h

/-- The tokens stand for words of the source, one after the other. -/
structure Placed (source : String) (ls : List Lexeme) : Prop where
  stands : ∀ l ∈ ls, ∃ w, l.Stands source w
  proper : ∀ l ∈ ls, l.span.start < l.span.stop
  apart : ls.Pairwise fun a b => a.span.stop ≤ b.span.start

/-- The tokens of a text have their places in it, one behind the other. -/
theorem placed_of_lex {source : String} {ls : List Lexeme} (h : lex source = .ok ls)
    (hsize : source.utf8ByteSize < UInt32.size) : Placed source ls := by
  have hbytes : 0 + Source.byteLength source.toList < UInt32.size := by
    rwa [Nat.zero_add, Source.byteLength_eq, String.ofList_toList]
  obtain ⟨hls, hapart⟩ := ordered_of_lexFrom h hbytes
  exact ⟨stands_of_lex h hsize, fun l hl => (hls l hl).2, hapart⟩

section Placed

variable {source : String} {ls rs : List Lexeme} {a b : Span}

/-- Some of the tokens have their places too. -/
theorem Placed.sublist (h : Placed source ls) (hsub : rs.Sublist ls) : Placed source rs :=
  ⟨fun l hl => h.stands l (hsub.subset hl), fun l hl => h.proper l (hsub.subset hl),
    h.apart.sublist hsub⟩

/-- So have the first of them. -/
theorem Placed.left (h : Placed source (ls ++ rs)) : Placed source ls :=
  h.sublist (List.sublist_append_left ls rs)

/-- So have the last of them. -/
theorem Placed.right (h : Placed source (ls ++ rs)) : Placed source rs :=
  h.sublist (List.sublist_append_right ls rs)

/-- So have all but the first. -/
theorem Placed.tail {l : Lexeme} (h : Placed source (l :: ls)) : Placed source ls :=
  h.sublist (List.sublist_cons_self l ls)

/-! ### Spans that begin and end with tokens -/

/-- The span begins where one of the tokens begins, and ends where one of them ends. -/
structure Occupies (ls : List Lexeme) (s : Span) : Prop where
  proper : s.start < s.stop
  start : ∃ l ∈ ls, l.span.start = s.start
  stop : ∃ l ∈ ls, l.span.stop = s.stop

/-- A token occupies its own place. -/
theorem Placed.occupies (h : Placed source ls) {l : Lexeme} (hl : l ∈ ls) : Occupies ls l.span :=
  ⟨h.proper l hl, ⟨l, hl, rfl⟩, ⟨l, hl, rfl⟩⟩

/-- What some tokens occupy, more of them do. -/
theorem Occupies.mono (h : Occupies ls a) (hsub : ls ⊆ rs) : Occupies rs a := by
  obtain ⟨hproper, ⟨first, hfirst, hstart⟩, last, hlast, hstop⟩ := h
  exact ⟨hproper, ⟨first, hsub hfirst, hstart⟩, last, hsub hlast, hstop⟩

/-- Two places are occupied together, from the start of the one to the stop of the other. -/
theorem Occupies.merge (ha : Occupies ls a) (hb : Occupies ls b) : Occupies ls (a.merge b) := by
  have hinside := Span.inside_merge_left a b
  refine ⟨?_, ?_, ?_⟩
  · exact UInt32.lt_of_le_of_lt hinside.start (UInt32.lt_of_lt_of_le ha.proper hinside.stop)
  · show ∃ l ∈ ls, l.span.start = if a.start ≤ b.start then a.start else b.start
    split
    · exact ha.start
    · exact hb.start
  · show ∃ l ∈ ls, l.span.stop = if a.stop ≤ b.stop then b.stop else a.stop
    split
    · exact hb.stop
    · exact ha.stop

/-- What begins and ends with tokens of the first half ends before what does with the second. -/
private theorem Occupies.stop_le (hls : Placed source (ls ++ rs)) (ha : Occupies ls a)
    (hb : Occupies rs b) : a.stop ≤ b.start := by
  obtain ⟨last, hlast, hstop⟩ := ha.stop
  obtain ⟨first, hfirst, hstart⟩ := hb.start
  rw [← hstop, ← hstart]
  exact (List.pairwise_append.1 hls.apart).2.2 last hlast first hfirst

/-- **What begins and ends with tokens is a piece of the text.** -/
private theorem Occupies.exists_slice? (hls : Placed source ls) (h : Occupies ls a) :
    a.stop.toNat ≤ source.utf8ByteSize ∧ ∃ part, a.slice? source = some part := by
  obtain ⟨first, hfirst, hstart⟩ := h.start
  obtain ⟨last, hlast, hstop⟩ := h.stop
  obtain ⟨v, hv⟩ := hls.stands first hfirst
  obtain ⟨w, hw⟩ := hls.stands last hlast
  rw [← hstop]
  refine ⟨Source.stop_le_of_slice? hw.slice, ?_⟩
  have hle : first.span.start.toNat ≤ last.span.stop.toNat := by
    rw [hstart, hstop]
    exact Nat.le_of_lt (UInt32.lt_iff_toNat_lt.1 h.proper)
  rw [Span.slice?, ← hstart, ← hstop]
  exact Source.exists_slice?_of_slice? hv.slice hw.slice hle

end Placed

/-! ### Trees next to one another -/

section Lined

variable {source : String} {ls rs : List Lexeme} {ns ms : List Node} {kind : Kind}

/-- The trees come from the tokens, one after the other, and every node has its place. -/
structure Lined (source : String) (ls : List Lexeme) (ns : List Node) : Prop where
  located : ∀ n ∈ ns, ∃ span, n.span = some span ∧ Occupies ls span
  ordered : ns.Pairwise Node.Before
  mapped : ∀ n ∈ ns, ∀ m ∈ n.preorder, m.IsMapped source

/-- No nodes are in order. -/
theorem Lined.nil : Lined source ls [] := ⟨nofun, .nil, nofun⟩

/-- Nodes over some tokens are nodes over more. -/
theorem Lined.mono (h : Lined source ls ns) (hsub : ls ⊆ rs) : Lined source rs ns := by
  refine ⟨fun n hn => ?_, h.ordered, h.mapped⟩
  obtain ⟨span, hspan, hoccupies⟩ := h.located n hn
  exact ⟨span, hspan, hoccupies.mono hsub⟩

/-- **Nodes over earlier tokens stand before nodes over later ones.** -/
theorem Lined.append (h : Lined source ls ns) (h' : Lined source rs ms)
    (hls : Placed source (ls ++ rs)) : Lined source (ls ++ rs) (ns ++ ms) := by
  have hleft := h.mono (List.subset_append_left ls rs)
  have hright := h'.mono (List.subset_append_right ls rs)
  refine ⟨?_, List.pairwise_append.2 ⟨h.ordered, h'.ordered, fun n hn m hm => ?_⟩, ?_⟩
  · exact List.forall_mem_append.2 ⟨hleft.located, hright.located⟩
  -- each node stands over tokens of its own side
  · obtain ⟨s, hs, hn'⟩ := h.located n hn
    obtain ⟨t, ht, hm'⟩ := h'.located m hm
    exact ⟨s, t, hs, ht, hn'.stop_le hls hm'⟩
  · exact List.forall_mem_append.2 ⟨h.mapped, h'.mapped⟩

/-- So they do with a token between them that belongs to none. -/
private theorem Lined.separated (h : Lined source ls ns) (h' : Lined source rs ms) {l : Lexeme}
    (hls : Placed source (ls ++ l :: rs)) : Lined source (ls ++ l :: rs) (ns ++ ms) :=
  h.append (h'.mono (List.subset_cons_self l rs)) hls

/-- **A node around trees**: a span that contains theirs makes a place for them all. -/
theorem Lined.wrap (h : Lined source ls ns) (hls : Placed source ls) {span : Span}
    (hspan : Occupies ls span)
    (hinside : ∀ n ∈ ns, ∀ inner, n.span = some inner → inner.Inside span)
    (hkind : ∀ part, span.slice? source = some part → kind.SpelledAs part) :
    Lined source ls [⟨kind, ns, some span⟩] := by
  obtain ⟨hsize, part, hpart⟩ := hspan.exists_slice? hls
  have hnested : ∀ n ∈ ns, ∃ inner, n.span = some inner ∧ inner.Inside span := by
    intro n hn
    obtain ⟨inner, hinner, -⟩ := h.located n hn
    exact ⟨inner, hinner, hinside n hn inner hinner⟩
  have hroot : Node.IsMapped source ⟨kind, ns, some span⟩ :=
    ⟨span, part, rfl, hspan.proper, hsize, hpart, hkind part hpart, hnested, h.ordered⟩
  refine ⟨?_, List.pairwise_singleton .., ?_⟩
  · exact List.forall_mem_singleton.2 ⟨span, rfl, hspan⟩
  · exact List.forall_mem_singleton.2 (Node.forall_mem_preorder_mk.2 ⟨hroot, h.mapped⟩)

/-- The span from the first to the last of some trees contains them all. -/
private theorem Lined.inside_merge (h : Lined source ls ns) {first last n : Node} {s t inner : Span}
    (hfirst : ns.head? = some first) (hlast : ns.getLast? = some last) (hs : first.span = some s)
    (ht : last.span = some t) (hn : n ∈ ns) (hinner : n.span = some inner) :
    inner.Inside (s.merge t) := by
  have hproper : ∀ {m : Node} {span : Span}, m ∈ ns → m.span = some span →
      span.start < span.stop := by
    intro m span hm hspan
    obtain ⟨_, hspan', hoccupies⟩ := h.located m hm
    cases hspan.symm.trans hspan'
    exact hoccupies.proper
  have hstart : s.start ≤ inner.start := by
    obtain ⟨more, rfl⟩ := List.head?_eq_some_iff.1 hfirst
    rcases List.mem_cons.1 hn with rfl | hmore
    · cases hs.symm.trans hinner
      exact UInt32.le_refl _
    · -- everything else stands behind the first
      obtain ⟨_, _, hs', hinner', hle⟩ := (List.pairwise_cons.1 h.ordered).1 n hmore
      cases hs.symm.trans hs'
      cases hinner.symm.trans hinner'
      exact UInt32.le_trans (UInt32.le_of_lt (hproper List.mem_cons_self hs)) hle
  have hstop : inner.stop ≤ t.stop := by
    obtain ⟨front, rfl⟩ := List.getLast?_eq_some_iff.1 hlast
    rcases List.mem_append.1 hn with hfront | hn
    · -- and before the last
      obtain ⟨_, _, hinner', ht', hle⟩ :=
        (List.pairwise_append.1 h.ordered).2.2 n hfront last List.mem_cons_self
      cases ht.symm.trans ht'
      cases hinner.symm.trans hinner'
      have hlt := hproper (List.mem_append_right front List.mem_cons_self) ht
      exact UInt32.le_trans hle (UInt32.le_of_lt hlt)
    · obtain rfl := List.mem_singleton.1 hn
      cases ht.symm.trans hinner
      exact UInt32.le_refl _
  exact ⟨UInt32.le_trans (Span.inside_merge_left s t).start hstart,
    UInt32.le_trans hstop (Span.inside_merge_right s t).stop⟩

/-- **A node over trees**, with the span from the first to the last. -/
theorem Lined.join (h : Lined source ls ns) (hls : Placed source ls) {first last : Node}
    (hfirst : ns.head? = some first) (hlast : ns.getLast? = some last)
    (hkind : ∀ part, kind.SpelledAs part) :
    Lined source ls [⟨kind, ns, spanOfBoth first last⟩] := by
  obtain ⟨s, hs, hs'⟩ := h.located first (List.mem_of_head? hfirst)
  obtain ⟨t, ht, ht'⟩ := h.located last (List.mem_of_getLast? hlast)
  have hspan : spanOfBoth first last = some (s.merge t) := by rw [spanOfBoth, hs, ht]
  rw [hspan]
  exact h.wrap hls (hs'.merge ht')
    (fun n hn inner hinner => h.inside_merge hfirst hlast hs ht hn hinner) fun part _ => hkind part

/-- **A node behind a token**, with the span of the token and the tree. -/
theorem Lined.behind {n : Node} (h : Lined source ls [n]) (hls : Placed source ls)
    {front other : Span} (hfront : Occupies ls front) (hkind : ∀ part, kind.SpelledAs part) :
    Lined source ls [⟨kind, [n], some (front.merge (n.span.getD other))⟩] := by
  obtain ⟨inner, hinner, hinner'⟩ := h.located n List.mem_cons_self
  rw [hinner, Option.getD_some]
  refine h.wrap hls (hfront.merge hinner') ?_ fun part _ => hkind part
  refine List.forall_mem_singleton.2 fun span hspan => ?_
  cases hinner.symm.trans hspan
  exact Span.inside_merge_right _ _

end Lined

/-! ### Derived trees -/

section Derives

variable {source : String} {registers registers' : List String} {ls : List Lexeme} {n : Node}

/-- A leaf is written as its word. -/
private theorem Lexeme.Stands.spelledAs {l : Lexeme} {w : Word} (h : l.Stands source w)
    {kind : Kind} (operand : l.token.leafKind? registers = some kind) :
    kind.SpelledAs (String.ofList w.letters) := by
  obtain ⟨token, letters, spells⟩ := w
  rw [h.token] at operand
  cases spells with
  | @int c digits n first more value =>
    cases operand
    exact ⟨c :: digits, rfl, List.cons_ne_nil c digits, List.forall_mem_cons.2 ⟨first, more⟩,
      Number.fit?_eq_some_iff.1 value⟩
  | name first more free =>
    cases operand
    rfl
  | str inside =>
    cases operand
    show String.ofList _ = _
    -- a string is what stands between its quotation marks
    simp [String.append_assoc]
  | var => cases operand
  | mark sign =>
    -- no sign is an operand
    have hsign := sign?_of_mark? sign
    cases token with
    | int _ => cases hsign
    | name _ => cases hsign
    | str _ => cases hsign
    | _ => cases operand

/-- **The nodes of an expression have their places in the text.** -/
theorem Derives.lined {tier : Tier} (h : Derives registers tier ls n) (hls : Placed source ls) :
    Lined source ls [n] := by
  induction h with
  | @leaf token span kind operand =>
    obtain ⟨w, hw⟩ := hls.stands _ List.mem_cons_self
    -- a leaf has no parts, and its piece is the word that it was read from
    refine Lined.nil.wrap hls (hls.occupies List.mem_cons_self) nofun fun part hpart => ?_
    cases hw.slice.symm.trans hpart
    exact hw.spelledAs operand
  | @group opening closing ls n _ ih =>
    -- the parentheses are tokens of no node
    exact (ih hls.tail.left).mono fun l hl => by simp [hl]
  | atom _ ih => exact ih hls
  | @negate minus ls n _ ih =>
    have hlined := (ih hls.tail).mono (List.subset_cons_self ⟨.op .minus, minus⟩ ls)
    rw [negationNode]
    exact hlined.behind hls (hls.occupies List.mem_cons_self) fun _ => trivial
  | signed _ ih => exact ih hls
  | product _ ih => exact ih hls
  | multiply _ _ _ ihl ihr =>
    -- the operator is a token of neither operand
    have hboth := (ihl hls.left).separated (ihr hls.right.tail) hls
    exact hboth.join hls rfl rfl fun _ => trivial
  | add _ _ _ ihl ihr =>
    have hboth := (ihl hls.left).separated (ihr hls.right.tail) hls
    exact hboth.join hls rfl rfl fun _ => trivial

/-- **The nodes of a statement are lined up over its tokens.** -/
theorem DerivesStatement.lined (h : DerivesStatement registers ls n registers')
    (hls : Placed source ls) : Lined source ls [n] := by
  cases h with
  | declare known =>
    have hkeyword := hls.occupies List.mem_cons_self
    have hname := hls.occupies (List.mem_cons_of_mem _ List.mem_cons_self)
    exact Lined.nil.wrap hls (hkeyword.merge hname) nofun fun _ _ => trivial
  | @define _ keyword span sign name i ls init known value =>
    have hsub : ls ⊆ ⟨.var, keyword⟩ :: ⟨.name name, span⟩ :: ⟨.assign, sign⟩ :: ls :=
      fun l hl => by simp [hl]
    -- the declaration starts at its keyword and ends with its initialiser
    have hlined := (value.lined hls.tail.tail.tail).mono hsub
    exact hlined.behind hls (hls.occupies List.mem_cons_self) fun _ => trivial
  | expression whole => exact whole.lined hls
  | assign left right =>
    have hboth := (left.lined hls.left).separated (right.lined hls.right.tail) hls
    exact hboth.join hls rfl rfl fun _ => trivial

/-- **The statements of a script stand in the text in order.** -/
theorem DerivesScript.lined {ns : List Node} (h : DerivesScript registers ls ns registers')
    (hls : Placed source ls) : Lined source ls ns := by
  induction h with
  | nil => exact .nil
  | last statement => exact statement.lined hls
  | cons first _ ih => exact (first.lined hls.left).separated (ih hls.right.tail) hls

end Derives

/-! ### Scripts -/

/-- **The spans of a script that was read are a source map.** Every node has a nonempty piece of the
text that ends between characters and contains the pieces of its children one after the other; the
piece of a leaf is what the leaf is written as; and the place that the dump of the script reports is
that of the root. -/
theorem read_isMapped {parameters : List String} {source : String} {script : Script}
    (hread : Script.read (reader parameters) source = .ok script)
    (hsize : source.utf8ByteSize < UInt32.size) (hstatements : script.statements ≠ []) :
    (∀ m ∈ script.root.preorder, m.IsMapped source) ∧
      ∃ span, script.root.span = some span ∧
        script.dump = script.written ++ " /*" ++ span.text ++ "*/" := by
  obtain ⟨hparse, -, -⟩ := read_eq_ok_iff.1 hread
  obtain ⟨tokens, ns, hlex, hderives, hroot⟩ := parse_eq_ok_iff.1 hparse
  have hns : ns ≠ [] := by
    rw [Script.statements, hroot, rootNode] at hstatements
    exact hstatements
  have hplaced := placed_of_lex hlex hsize
  -- the root stands over its statements, from the first to the last
  have hlined : Lined source tokens [script.root] := by
    have hfirst := List.head?_eq_some_head hns
    have hlast := List.getLast?_eq_some_getLast hns
    rw [hroot, rootNode, hfirst, hlast]
    exact (hderives.lined hplaced).join hplaced hfirst hlast fun _ => trivial
  have hmapped := hlined.mapped script.root List.mem_cons_self
  obtain ⟨span, hspan, -⟩ := hlined.located script.root List.mem_cons_self
  refine ⟨hmapped, span, hspan, ?_⟩
  -- spans are nested, so that the root covers everything
  have hcoverage : ((Transcript.start script.source).record script.root).span = some span := by
    refine Node.coverage_render_of_inside script.source (fun m hm c hc => ?_) hspan
    obtain ⟨outer, _, hm⟩ := hmapped m hm
    obtain ⟨inner, hinner, hinside⟩ := hm.nested c hc
    exact ⟨inner, outer, hinner, hm.span_eq, hinside⟩
  rw [script.dump_eq_written_append, hcoverage, String.append_assoc, String.append_assoc]
  rfl

/-- A string with a letter of two bytes, a sum in parentheses and a sign. -/
def parenthesised : Script where
  root := ⟨.script,
    [⟨.var "s" 0, [⟨.literal (.str "é"), [], some ⟨8, 12⟩⟩], some ⟨0, 12⟩⟩,
    ⟨.binary .mul,
      [⟨.binary .add, [⟨.identifier "s" (some 0), [], some ⟨15, 16⟩⟩,
        ⟨.unary .neg, [⟨.literal (.int 12), [], some ⟨20, 22⟩⟩], some ⟨19, 22⟩⟩], some ⟨15, 22⟩⟩,
      ⟨.identifier "s" (some 0), [], some ⟨26, 27⟩⟩], some ⟨15, 27⟩⟩], some ⟨0, 27⟩⟩
  registers := ["s"]
  parameterCount := 0
  source := some "var s = \"é\"; (s + -12) * s"
  root_kind := rfl
  parameterCount_le := by decide
  nodup_registers := by decide

private theorem read_parenthesised :
    Script.read (reader []) "var s = \"é\"; (s + -12) * s" = .ok parenthesised := by
  have hlex : lex "var s = \"é\"; (s + -12) * s" = .ok
      [⟨.var, ⟨0, 3⟩⟩, ⟨.name "s", ⟨4, 5⟩⟩, ⟨.assign, ⟨6, 7⟩⟩, ⟨.str "é", ⟨8, 12⟩⟩,
        ⟨.semicolon, ⟨12, 13⟩⟩, ⟨.openParen, ⟨14, 15⟩⟩, ⟨.name "s", ⟨15, 16⟩⟩,
        ⟨.op .plus, ⟨17, 18⟩⟩, ⟨.op .minus, ⟨19, 20⟩⟩, ⟨.int 12, ⟨20, 22⟩⟩,
        ⟨.closeParen, ⟨22, 23⟩⟩, ⟨.op .times, ⟨24, 25⟩⟩, ⟨.name "s", ⟨26, 27⟩⟩] := by
    decide +kernel
  have hinit : Derives ["s"] .sum [⟨.str "é", ⟨8, 12⟩⟩]
      ⟨.literal (.str "é"), [], some ⟨8, 12⟩⟩ := .product (.signed (.atom (.leaf rfl)))
  have hsum : Derives ["s"] .sum
      [⟨.name "s", ⟨15, 16⟩⟩, ⟨.op .plus, ⟨17, 18⟩⟩, ⟨.op .minus, ⟨19, 20⟩⟩, ⟨.int 12, ⟨20, 22⟩⟩]
      ⟨.binary .add, [⟨.identifier "s" (some 0), [], some ⟨15, 16⟩⟩,
        ⟨.unary .neg, [⟨.literal (.int 12), [], some ⟨20, 22⟩⟩], some ⟨19, 22⟩⟩], some ⟨15, 22⟩⟩ :=
    .add (by rfl) (.product (.signed (.atom (.leaf rfl)))) (.signed (.negate (.atom (.leaf rfl))))
  have hproduct : Derives ["s"] .sum
      [⟨.openParen, ⟨14, 15⟩⟩, ⟨.name "s", ⟨15, 16⟩⟩, ⟨.op .plus, ⟨17, 18⟩⟩,
        ⟨.op .minus, ⟨19, 20⟩⟩, ⟨.int 12, ⟨20, 22⟩⟩, ⟨.closeParen, ⟨22, 23⟩⟩,
        ⟨.op .times, ⟨24, 25⟩⟩, ⟨.name "s", ⟨26, 27⟩⟩]
      ⟨.binary .mul, [_, ⟨.identifier "s" (some 0), [], some ⟨26, 27⟩⟩], some ⟨15, 27⟩⟩ :=
    .product (.multiply (by rfl) (.signed (.atom (.group hsum))) (.atom (.leaf rfl)))
  have hparse : parse [] "var s = \"é\"; (s + -12) * s" =
      .ok (parenthesised.root, parenthesised.registers) :=
    parse_eq_ok_iff.2
      ⟨_, _, hlex, .cons (.define rfl hinit) (.last (.expression hproduct)), rfl⟩
  exact read_eq_ok_iff.2 ⟨hparse, rfl, rfl⟩

/-- The span of the string has the quotes in it, and counts the letter between them twice. -/
theorem read_isMapped_parenthesised :
    Script.read (reader []) "var s = \"é\"; (s + -12) * s" = .ok parenthesised ∧
      "var s = \"é\"; (s + -12) * s".utf8ByteSize < UInt32.size ∧
      parenthesised.statements ≠ [] ∧
      (Span.mk 8 12).slice? "var s = \"é\"; (s + -12) * s" = some "\"é\"" ∧
      ∃ span, parenthesised.root.span = some span ∧
        parenthesised.dump = parenthesised.written ++ " /*" ++ span.text ++ "*/" := by
  have hsize : "var s = \"é\"; (s + -12) * s".utf8ByteSize < UInt32.size := by decide
  have hstatements : parenthesised.statements ≠ [] := List.cons_ne_nil _ _
  obtain ⟨hmapped, hdump⟩ := read_isMapped read_parenthesised hsize hstatements
  obtain ⟨span, part, hstring⟩ :=
    hmapped ⟨.literal (.str "é"), [], some ⟨8, 12⟩⟩ (by simp [parenthesised])
  cases hstring.span_eq
  obtain rfl : part = "\"é\"" := hstring.spelled
  exact ⟨read_parenthesised, hsize, hstatements, hstring.slice, hdump⟩

end Grammar

end Scriptlet
