import EscapeRoom.Proofs.Yaml.FirstToken

/-!
# What the first tokens make of a document

The grammar makes an event of a first token before it looks at what follows, so a document that
begins with a scalar, a key or a collection has a tree of that kind or none.

* `Heads` — first events that make a tree more than an empty one.
* `IsFront.ofDocument` — first tokens lead to such events, or to a fault.
* `Shown.tree` — a tree of such tokens is neither null nor an empty mapping.
-/

namespace EscapeRoom.Yaml

/-! ### Trees that stand for something -/

/-- Whether a tree stands for nothing: null, or a mapping without entries. -/
def Tree.IsVoid (t : Tree) : Prop := t = .null ∨ t = .mapping .nil

/-- What a plain scalar that begins with a hyphen or a blank denotes is not null. -/
theorem plainTree_of_isStray {text : List Char} (h : IsStray text) :
    Yields (fun t => ¬ t.IsVoid) (plainTree text) := by
  obtain ⟨c, rest, rfl, hc⟩ := h
  have hword : isNullWord (c :: rest) = false := by
    rw [isNullWord, List.any_eq_false]
    -- none of the null words begins with such a character
    have hheads : (["~", "null", "Null", "NULL"].all fun w => w.toList.head?.all fun d =>
      d != '-' && !Text.isBlank d) = true := by decide
    intro w hw heq
    have hhead : w.toList.head? = some c := by rw [eq_of_beq heq]; rfl
    have hother := List.all_eq_true.1 hheads w hw
    rw [hhead, Option.all_some, Bool.and_eq_true, bne_iff_ne, Bool.not_eq_true'] at hother
    rcases hc with hc | hc
    · exact hother.1 hc
    · exact Bool.false_ne_true (hother.2.symm.trans hc)
  unfold plainTree
  rw [if_neg (by rw [hword]; exact Bool.false_ne_true)]
  split
  · exact yields_ok (by rintro (h | h) <;> cases h)
  · split
    · split
      · exact yields_ok (by rintro (h | h) <;> cases h)
      · exact yields_error
    · split
      · exact yields_ok (by rintro (h | h) <;> cases h)
      · exact yields_ok (by rintro (h | h) <;> cases h)

/-- Events are only added. -/
theorem Event.front_run (g : Grammar) (fuel : Nat) (back : List Event) (tokens : List Token)
    (stack : List Expectation) :
    back.reverse <+: (Event.run g fuel back tokens stack).1.reverse := by
  induction fuel generalizing back tokens stack with
  | zero => exact List.prefix_refl _
  | succ fuel ih =>
      cases stack with
      | nil => exact List.prefix_refl _
      | cons e stack =>
          rw [Event.run]
          split
          · exact List.prefix_refl _
          · rename_i event tokens stack _
            refine List.IsPrefix.trans ?_ (ih (event :: back) tokens stack)
            rw [List.reverse_cons]
            exact List.prefix_append _ _

/-- First events that make a tree more than an empty one. -/
inductive Heads : List Event → Prop
  | scalar {text : List Char} (h : IsStray text) (events : List Event) :
      Heads (.scalar .none text true :: events)
  | sequence (events : List Event) : Heads (.sequenceStart .none :: events)
  | mapping {text : List Char} (h : IsStray text) (events : List Event) :
      Heads (.mappingStart .none :: .scalar .none text true :: events)

theorem Heads.of_front {events more : List Event} (h : Heads events) (hmore : events <+: more) :
    Heads more := by
  obtain ⟨rest, rfl⟩ := hmore
  cases h with
  | scalar h events => exact .scalar h _
  | sequence events => exact .sequence _
  | mapping h events => exact .mapping h _

/-- A stream with a fault has no tree. -/
theorem yields_tree_of_fault {P : Tree → Prop} {s : Stream} (h : s.fault.isSome = true) :
    Yields P (Document.ofStream s).tree := by
  obtain ⟨fault, hfault⟩ : ∃ fault, (Document.ofStream s).fault = some fault := by
    obtain ⟨fault, hfault⟩ := Option.isSome_iff_exists.1 h
    rw [Document.ofStream, hfault]
    dsimp only
    split
    · exact ⟨_, rfl⟩
    · exact ⟨_, rfl⟩
  rw [Document.tree, hfault, Option.isNone_some, Bool.and_false, if_neg Bool.false_ne_true]
  exact (yields_anything _).bind fun _ _ => yields_error

/-- An entry was read, so the mapping is not empty. -/
theorem yields_buildEntries_of_scalar (d : Document) (fuel depth jumps : Nat) (bare : Bool)
    (keys : List Tree) (tag : Option TagKind) (text : List Char) (plain : Bool)
    (nodes : List Node) :
    Yields (fun r => r.1 ≠ .nil)
      (d.buildEntries fuel depth bare jumps keys (.scalar tag text plain :: nodes)) := by
  rw [Document.buildEntries.eq_def]
  split
  · exact yields_error
  · refine (yields_anything _).bind fun key _ => ?_
    dsimp only
    split
    · exact yields_error
    · refine (yields_anything _).bind fun value _ => (yields_anything _).bind fun rest _ => ?_
      refine yields_ok ?_
      rintro ⟨⟩

/-- What is built of such events is neither null nor an empty mapping. -/
theorem Heads.build {events : List Event} (h : Heads events) (d : Document)
    (fuel depth jumps : Nat) :
    Yields (fun r => ¬ r.1.IsVoid)
      (d.build fuel depth false jumps (numberAnchors [] events).1) := by
  cases fuel with
  | zero =>
      rw [Document.build]
      exact yields_error
  | succ fuel =>
      cases h with
      | @scalar text h events =>
          have hnodes : (numberAnchors [] (.scalar .none text true :: events)).1 =
            .scalar none text true :: (numberAnchors [] events).1 := rfl
          rw [hnodes, Document.build]
          exact (plainTree_of_isStray h).bind fun t ht => yields_ok ht
      | sequence events =>
          have hnodes : (numberAnchors [] (.sequenceStart .none :: events)).1 =
            .sequenceStart none :: (numberAnchors [] events).1 := rfl
          rw [hnodes, Document.build.eq_def]
          dsimp only
          split
          · exact yields_error
          · refine (yields_anything _).bind fun r _ => yields_ok ?_
            rintro (h | h) <;> cases h
      | @mapping text h events =>
          have hnodes : (numberAnchors [] (.mappingStart .none :: .scalar .none text true ::
            events)).1 = .mappingStart none :: .scalar none text true ::
              (numberAnchors [] events).1 := rfl
          rw [hnodes, Document.build.eq_def]
          dsimp only
          split
          · exact yields_error
          · refine (yields_buildEntries_of_scalar d _ _ _ _ _ _ _ _ _).bind fun r hr => ?_
            refine yields_ok ?_
            rintro (h | h)
            · cases h
            · injection h with h
              exact hr h

/-- The tree of such events is neither null nor an empty mapping. -/
theorem Heads.tree {s : Stream} (h : Heads s.events) :
    Yields (fun t => ¬ t.IsVoid) (Document.ofStream s).tree := by
  obtain ⟨events, fault⟩ := s
  have hsome : (Document.ofStream ⟨events, fault⟩).nodes.isEmpty = false := by
    cases h with | _ => rfl
  rw [Document.tree, hsome, Bool.false_and, if_neg Bool.false_ne_true]
  refine (h.build _ _ _ _).bind fun r hr => ?_
  dsimp only
  split
  · exact yields_ok hr
  · exact yields_error

/-- Whether a stream has such events or a fault. -/
def Stream.IsFull (s : Stream) : Prop := Heads s.events ∨ s.fault.isSome = true

theorem Stream.IsFull.tree {s : Stream} (h : s.IsFull) :
    Yields (fun t => ¬ t.IsVoid) (Document.ofStream s).tree := by
  rcases h with h | h
  · exact h.tree
  · exact yields_tree_of_fault h

theorem Stream.events_ofDocument (g : Grammar) (tokens : List Token) (first : Expectation) :
    (Stream.ofDocument g tokens first).events =
      (Event.run g (4 * tokens.length + 8) [] tokens [first]).1.reverse := by
  rw [Stream.ofDocument]
  split <;> rename_i heq <;> rw [heq]

/-- The events go on behind the first one. -/
theorem Event.run_of_step {g : Grammar} {tokens rest : List Token} {e : Expectation} {event : Event}
    {stack stack' : List Expectation} (h : Event.step g tokens stack e = .ok (event, rest, stack'))
    (fuel : Nat) (back : List Event) :
    Event.run g (fuel + 1) back tokens (e :: stack) =
      Event.run g fuel (event :: back) rest stack' := by
  rw [Event.run, h]

/-- First tokens that make a document more than an empty one lead to such events. -/
theorem IsFront.ofDocument {before front : List Token} (h : IsFront before front) (g : Grammar)
    (more : List Token) {first : Expectation} (hfirst : before = [] ∧ first = .blockNode ∨
      before = [.documentStart] ∧ first = .documentContent) :
    (Stream.ofDocument g (front ++ more) first).IsFull := by
  have hnode : ∀ t tokens, endsDocument t = false →
      Event.step g (t :: tokens) [] first = nodeStep g true false (t :: tokens) [] := by
    intro t tokens ht
    rcases hfirst with ⟨-, rfl⟩ | ⟨-, rfl⟩
    · rfl
    · rw [Event.step, optionalNode, ht, if_neg Bool.false_ne_true]
  cases h with
  | @scalar text h =>
      left
      have hstep : Event.step g (.scalar text true :: more) [] first =
        .ok (.scalar .none text true, more, []) := hnode _ _ rfl
      rw [Stream.events_ofDocument]
      refine (Heads.scalar h []).of_front ?_
      rw [List.singleton_append, Event.run_of_step hstep]
      exact Event.front_run g _ [_] _ _
  | key =>
      right
      have hstep : Event.step g (.key :: more) [] first = .error .unexpectedToken := hnode _ _ rfl
      rw [Stream.ofDocument, List.singleton_append, Event.run, hstep]
      rfl
  | @mapping text h =>
      left
      have hstep : Event.step g (.blockMappingStart :: .key :: .scalar text true :: more) [] first =
        .ok (.mappingStart .none, .key :: .scalar text true :: more, [.blockMappingKey]) :=
          hnode _ _ rfl
      have hkey : Event.step g (.key :: .scalar text true :: more) [] .blockMappingKey =
        .ok (.scalar .none text true, more, [.blockMappingValue]) := rfl
      rw [Stream.events_ofDocument]
      refine (Heads.mapping h []).of_front ?_
      rw [List.cons_append, List.cons_append, List.singleton_append, Event.run_of_step hstep,
        Event.run_of_step hkey]
      exact Event.front_run g _ [_, _] _ _
  | sequence =>
      left
      have hstep : Event.step g (.blockSequenceStart :: more) [] first =
        .ok (.sequenceStart .none, more, [.blockSequenceEntry]) := hnode _ _ rfl
      rw [Stream.events_ofDocument]
      refine (Heads.sequence []).of_front ?_
      rw [List.singleton_append, Event.run_of_step hstep]
      exact Event.front_run g _ [_] _ _
  | document h =>
      right
      obtain ⟨hnone, -⟩ | ⟨-, rfl⟩ := hfirst
      · cases hnone.symm.trans h
      · have hstep : Event.step g (.documentStart :: more) [] .documentContent =
          .ok (.omitted, .documentStart :: more, []) := rfl
        rw [Stream.ofDocument, List.singleton_append, Event.run_of_step hstep]
        rfl

theorem Stream.ofTokens_documentStart (rest : List Token) (fault : Option Fault) :
    Stream.ofTokens (.documentStart :: rest) fault =
      .ofDocument ⟨.standard, fault.getD .unexpectedToken⟩ rest .documentContent := by
  simp only [Stream.ofTokens, readDirectives, List.nil_append]

/-- The events of tokens that show such first ones, behind nothing or behind a `---`. -/
theorem Shown.isFull {before : List Token} {r : List Token × Option Fault} (h : Shown before r)
    (hbefore : before = [] ∨ before = [.documentStart]) : (Stream.ofTokens r.1 r.2).IsFull := by
  cases h with
  | @front front hfront h =>
      obtain ⟨more, hmore⟩ := h
      rw [← hmore]
      rcases hbefore with rfl | rfl
      · have hfull := hfront.ofDocument ⟨.standard, r.2.getD .unexpectedToken⟩ more
          (.inl ⟨rfl, rfl⟩)
        cases hfront with
        | document h => cases h
        | _ => exact hfull
      · rw [List.append_assoc, List.singleton_append, Stream.ofTokens_documentStart]
        exact hfront.ofDocument _ more (.inr ⟨rfl, rfl⟩)
  | fault h hfault =>
      right
      rcases hbefore with rfl | rfl
      · rw [List.prefix_nil.1 h]
        exact hfault
      · rcases List.prefix_cons_iff.1 h with hnone | ⟨rest, hrest, hstarts⟩
        · rw [hnone]
          exact hfault
        · rw [hrest, List.prefix_nil.1 hstarts, Stream.ofTokens_documentStart]
          rfl

/-- **A tree of such tokens is neither null nor an empty mapping.** -/
theorem Shown.tree {before : List Token} {r : List Token × Option Fault} (h : Shown before r)
    (hbefore : before = [] ∨ before = [.documentStart]) :
    Yields (fun t => ¬ t.IsVoid) (Document.ofStream (.ofTokens r.1 r.2)).tree :=
  (h.isFull hbefore).tree

end EscapeRoom.Yaml
