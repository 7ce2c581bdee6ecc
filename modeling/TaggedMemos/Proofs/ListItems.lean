import TaggedMemos.Proofs.Scaffold

/-!
# The Items of Lists

While a text is read, the next number of every open list is on a stack of its own, beside the stack
of open constructs, and a task marker looks for its item through the open constructs. Neither is
needed to say what the items become. `Nesting` is a balanced stream as a tree, and
`Nesting.outline` reads the containers of its forest off that tree: an item gets its kind from the
list it is in, the number of items before it in this list, and the marker inside of it.

The two agree because the stacks are aligned whenever a construct has been read: whatever is nested
in it has taken its own counters away again (`countersIn`) and its markers have gone to its own
items.

## Main results

* `Nesting.balanced_events`, `Nesting.exists_of_balanced`: nestings are the balanced streams.
* `Nesting.items_outline`: what the outline says of the items of one list.
* `Nesting.run_events`: reading the events of a nesting adds its outline.
* `list_items_numbered`: the items of a forest, by number, list and marker.
-/

namespace TaggedMemos

/-! ### Streams as trees -/

/-- A balanced stream, with everything inside of a construct in one place. -/
inductive Nesting where
  /-- Nothing at all. -/
  | done
  /-- An event that neither begins nor ends a construct, and what comes after it. -/
  | plain (located : Located) (isPlain : located.event.isPlain = true) (rest : Nesting)
  /-- A construct with what is inside of it, and what comes after it. -/
  | construct (opening : Opening) (span span' : Text.Span) (inner rest : Nesting)

namespace Nesting

/-- The events of a nesting in order. -/
def events : Nesting → List Located
  | done => []
  | plain located _ rest => located :: rest.events
  | construct opening span span' inner rest =>
    ⟨.start opening, span⟩ :: (inner.events ++ ⟨.stop, span'⟩ :: rest.events)

/-- The events of a nesting are balanced. -/
theorem balanced_events (nesting : Nesting) : Balanced nesting.events := by
  induction nesting with
  | done => exact .nil
  | plain located isPlain rest ih => exact .plain isPlain ih
  | construct opening span span' inner rest ihInner ihRest => exact .nested ihInner ihRest

/-- Every balanced stream consists of the events of some nesting. -/
theorem exists_of_balanced {events : List Located} (balanced : Balanced events) :
    ∃ nesting : Nesting, nesting.events = events := by
  induction balanced with
  | nil => exact ⟨done, rfl⟩
  | plain isPlain _ ih =>
      obtain ⟨rest, rfl⟩ := ih
      exact ⟨plain _ isPlain rest, rfl⟩
  | @nested opening span span' _ _ _ _ ihInner ihRest =>
      obtain ⟨inner, rfl⟩ := ihInner
      obtain ⟨rest, rfl⟩ := ihRest
      exact ⟨construct opening span span' inner rest, rfl⟩

end Nesting

/-! ### Items, by position and marker -/

/-- Whether an opening leads to a list. -/
def Opening.isList : Opening → Bool
  | list _ => true
  | _ => false

/-- The number of the first item of a list, if it is an ordered one. -/
def Opening.first : Opening → Option UInt64
  | list first => first
  | _ => none

/-- The containers of a construct, given those inside of it, and what it becomes if it is an item.
Links, images and code blocks have none. -/
def Opening.around (item : ContainerKind) (inside : Forest) : Opening → Forest
  | .item => [.container item inside]
  | .list first => [.container (.list first.isSome) inside]
  | .paragraph => [.container .paragraph inside]
  | .heading level => [.container (.heading level) inside]
  | .quote => [.container .quote inside]
  | .emphasis => [.container .italic inside]
  | .strong => [.container .bold inside]
  | .other => inside
  | .link .. | .image .. | .codeBlock _ => []

/-- What an item becomes: a task item if it has a marker, and otherwise an item of its list. The
index counts the items of this list from zero. -/
def itemKind (first : Option UInt64) (index : Nat) (marker : Option Bool) : ContainerKind :=
  match marker, first with
  | some complete, _ => .taskItem complete
  | none, some number => .orderedItem (number + .ofNat index)
  | none, none => .bulletItem

/-- An item without a marker has the number of its list plus its index, if the numbers go that
far. -/
theorem itemKind_number {number : UInt64} {index : Nat}
    (small : number.toNat + index < UInt64.size) :
    ∃ n : UInt64, itemKind (some number) index none = .orderedItem n ∧
      n.toNat = number.toNat + index := by
  refine ⟨_, rfl, ?_⟩
  rw [UInt64.toNat_add, UInt64.toNat_ofNat', Nat.add_mod_mod, Nat.mod_eq_of_lt small]

namespace Nesting

/-- The task markers for which the innermost item around is not in the nesting itself. -/
def markers : Nesting → List Bool
  | done => []
  | plain located _ rest => located.event.marker?.toList ++ rest.markers
  | construct opening _ _ inner rest =>
    (if opening = .item then [] else inner.markers) ++ rest.markers

/-- Items open directly inside of lists and have one marker at most, where `inList` tells whether
the nesting stands directly in a list. -/
def WellPlaced (inList : Bool) : Nesting → Prop
  | done => True
  | plain _ _ rest => rest.WellPlaced inList
  | construct opening _ _ inner rest =>
    (opening = .item → inList = true ∧ inner.markers.length ≤ 1) ∧
      inner.WellPlaced opening.isList ∧ rest.WellPlaced inList

/-- The containers of the forest of a nesting. If it stands directly in a list, `first` is the
number of the first item of this list, and `index` counts the items of the list before. -/
def outline (first : Option UInt64) (index : Nat) : Nesting → Forest
  | done => []
  | plain _ _ rest => rest.outline first index
  | construct opening _ _ inner rest =>
    opening.around (itemKind first index inner.markers.head?) (inner.outline opening.first 0) ++
      rest.outline first (if opening = .item then index + 1 else index)

/-- What is inside of the items that stand directly in a nesting. -/
def items : Nesting → List Nesting
  | done => []
  | plain _ _ rest => rest.items
  | construct opening _ _ inner rest => (if opening = .item then [inner] else []) ++ rest.items

/-- Outside of lists there are no items. -/
theorem items_eq_nil {nesting : Nesting} (placed : nesting.WellPlaced false) :
    nesting.items = [] := by
  induction nesting with
  | done => rfl
  | plain _ _ rest ih => exact ih placed
  | construct opening _ _ inner rest _ ih =>
      obtain ⟨here, -, after⟩ := placed
      have other : opening ≠ .item := fun item => Bool.false_ne_true (here item).1
      rw [items, if_neg other, ih after]
      rfl

end Nesting

/-- The kind of an item, if a node is one. -/
def Node.itemKind? : Node → Option ContainerKind
  | .container (.orderedItem number) _ => some (.orderedItem number)
  | .container .bulletItem _ => some .bulletItem
  | .container (.taskItem complete) _ => some (.taskItem complete)
  | _ => none

/-- **The items of a list in order**: in the outline, the item with the index `k` is what `itemKind`
says of this index and the marker of the item. -/
theorem Nesting.items_outline {nesting : Nesting} {inList : Bool}
    (placed : nesting.WellPlaced inList) (first : Option UInt64) (index : Nat) :
    (nesting.outline first index).filterMap Node.itemKind? =
      nesting.items.mapIdx fun k item => itemKind first (index + k) item.markers.head? := by
  induction nesting generalizing inList first index with
  | done => rfl
  | plain _ _ rest ih => exact ih placed first index
  | construct opening _ _ inner rest ihInner ihRest =>
      obtain ⟨here, inside, after⟩ := placed
      rw [outline, List.filterMap_append, ihRest after, items]
      cases opening with
      | item =>
          have kind : ∀ (marker : Option Bool) (children : Forest),
              Node.itemKind? (.container (itemKind first index marker) children) =
                some (itemKind first index marker) := by
            intro marker children
            cases marker <;> cases first <;> rfl
          simp [Opening.around, kind, Nat.add_assoc, Nat.add_comm 1]
      | other =>
          have none := ihInner inside none 0
          rw [items_eq_nil inside] at none
          simpa [Opening.around, Opening.first] using none
      | _ => simp [Opening.around, Node.itemKind?]

/-! ### Counters and markers of constructs -/

/-- The counters where `outer` are those of the lists around, and the next item of the innermost
list, if one is open directly, has the given index. -/
def countersIn (inList : Bool) (first : Option UInt64) (index : Nat)
    (outer : List (Option UInt64)) : List (Option UInt64) :=
  if inList then first.map (· + .ofNat index) :: outer else outer

namespace Assembly

variable {a : Assembly} {opening : Opening} {inList : Bool} {first : Option UInt64} {index : Nat}
variable {outer : List (Option UInt64)}

/-- An item uses up the number that the innermost list has for it. -/
theorem countersAfter_item {number : UInt64} (counters : a.counters = some number :: outer) :
    a.countersAfter .item = some (number + 1) :: outer := by
  delta countersAfter
  rw [counters]

/-- An item of a list without numbers leaves the counters as they are. -/
theorem countersAfter_item_bullet (counters : a.counters = none :: outer) :
    a.countersAfter .item = none :: outer := by
  delta countersAfter
  rw [counters]

/-- A list brings its own counter, and an item uses up one number of the list it is in. -/
theorem countersAfter_eq (aligned : a.counters = countersIn inList first index outer)
    (placed : opening = .item → inList = true) :
    a.countersAfter opening = countersIn opening.isList opening.first 0
      (countersIn inList first (if opening = .item then index + 1 else index) outer) := by
  cases opening with
  | item =>
      cases placed rfl
      cases first with
      | none => exact countersAfter_item_bullet aligned
      | some number =>
          have next : number + .ofNat index + 1 = number + .ofNat (index + 1) := by
            rw [UInt64.add_assoc, UInt64.ofNat_add]
            rfl
          rw [countersAfter_item aligned, next]
          rfl
  | list number =>
      have zero : countersIn true number 0 (countersIn inList first index outer) =
          number :: countersIn inList first index outer := by
        simp [countersIn]
      rw [Opening.isList, Opening.first, if_neg (by simp), zero, ← aligned]
      rfl
  | _ => exact aligned

/-- The markers inside of a construct find their item: an item itself, if it has a marker, and the
item around for any other construct. What the construct leaves behind is what it is said to have
around the containers inside of it. -/
theorem exists_marked {markers : List Bool}
    (aligned : a.counters = countersIn inList first index outer)
    (placed : opening = .item → inList = true ∧ markers.length ≤ 1) (frames : List Frame) :
    ∃ kind : FrameKind,
      markItems markers ({ kind := a.frameKind opening, start := 0, children := [] } :: frames) =
        { kind, start := 0, children := [] } ::
          markItems (if opening = .item then [] else markers) frames ∧
      kind.isList = opening.isList ∧
      ∀ inside, Frame.remains { kind, start := 0, children := inside } =
        opening.around (itemKind first index markers.head?) inside := by
  cases opening with
  | item =>
      obtain ⟨rfl, single⟩ := placed rfl
      have head : a.counters = first.map (· + .ofNat index) :: outer := aligned
      match markers, single with
      | [], _ =>
          refine ⟨.container (itemKind first index none), ?_, ?_, fun _ => rfl⟩
          · cases first <;> simp [markItems, frameKind, head, itemKind]
          · cases first <;> rfl
      | [complete], _ =>
          refine ⟨.container (.taskItem complete), ?_, rfl, fun _ => rfl⟩
          cases first <;> simp [markItems, markFirstItem, Frame.isPlainItem, frameKind, head]
  | _ => exact ⟨_, markItems_cons rfl markers frames, rfl, fun _ => rfl⟩

end Assembly

namespace Nesting

open Assembly

/-- **Reading a nesting adds its outline**, passes its markers on to the item around, and leaves the
counters to the lists that are still open. -/
theorem run_events (nesting : Nesting) {a : Assembly} {inList : Bool} {first : Option UInt64}
    {index : Nat} {outer : List (Option UInt64)} (placed : nesting.WellPlaced inList)
    (aligned : a.counters = countersIn inList first index outer) :
    ∃ b, a.run nesting.events = .ok b ∧
      b.bare = addInside (nesting.outline first index) (markItems nesting.markers a.bare) ∧
      ∃ index', b.counters = countersIn inList first index' outer := by
  induction nesting generalizing a inList first index outer with
  | done => exact ⟨a, rfl, (addInside_nil _).symm, index, aligned⟩
  | plain located isPlain rest ih =>
      obtain ⟨b, stepped, bare, counters⟩ := step_plain isPlain a
      obtain ⟨d, ran, bare', counters'⟩ := ih placed (counters.trans aligned)
      refine ⟨d, by rw [events, run, stepped, Except.bind, ran], ?_, counters'⟩
      rw [bare', bare, outline, markers, markItems_append]
  | construct opening span span' inner rest ihInner ihRest =>
      obtain ⟨here, inside, after⟩ := placed
      obtain ⟨b, ran, bare, _, counters⟩ := ihInner (a := a.openFrame opening span.start) inside
        (countersAfter_eq aligned fun item => (here item).1)
      obtain ⟨kind, marked, list, remains⟩ := exists_marked aligned here a.bare
      -- What is around the construct, with the markers that passed it by.
      have open_around : markItems (if opening = .item then [] else inner.markers) a.bare ≠ [] := by
        intro none
        have same := length_markItems (if opening = .item then [] else inner.markers) a.bare
        rw [none, length_bare] at same
        cases same
      rw [bare_openFrame, marked] at bare
      obtain ⟨d, closed, bare', counters'⟩ := closeFrame_bare bare open_around span'.stop
      have left : d.counters =
          countersIn inList first (if opening = .item then index + 1 else index) outer := by
        rw [counters', counters]
        simp only [list]
        cases opening.isList <;> rfl
      obtain ⟨z, ran', bare'', counters''⟩ := ihRest after left
      refine ⟨z, by rw [events, run_construct ran closed, ran'], ?_, counters''⟩
      rw [bare'', bare', markItems_addInside, addInside_addInside, ← markItems_append]
      exact congrArg (fun nodes => addInside (nodes ++ _) _) (remains _)

end Nesting

/-- **Items are numbered and marked as their lists say.** A balanced stream consists of the events
of a nesting. If items open directly inside of lists and each has one task marker at most, counting
those that come while it is the innermost open item, then the stream is read into a forest with the
containers of the outline: an item with a marker is a task item, and any other with `k` items before
it in its list has the number `s + k` if the list begins with the number `s`, and is a bullet item
if the list has no numbers. A task item counts as one of the items before. Numbers go up to
`UInt64.size`, and past it they begin again with zero. -/
theorem list_items_numbered (source : String) {events : List Located} (balanced : Balanced events) :
    (∃ nesting : Nesting, nesting.events = events) ∧
    ∀ nesting : Nesting, nesting.events = events → nesting.WellPlaced false →
      (∃ nodes, Forest.ofEvents source events = .ok nodes ∧
        Forest.skeleton nodes = nesting.outline none 0) ∧
      ∀ (s : UInt64) (k : Nat), s.toNat + k < UInt64.size →
        ∃ n : UInt64, itemKind (some s) k none = .orderedItem n ∧ n.toNat = s.toNat + k := by
  refine ⟨Nesting.exists_of_balanced balanced, ?_⟩
  rintro nesting rfl placed
  refine ⟨?_, fun s k small => itemKind_number small⟩
  let start : Assembly := { source := source.toList }
  have aligned : start.counters = countersIn false none 0 [] := rfl
  obtain ⟨a, ran, bare, -⟩ := nesting.run_events placed aligned
  have root : Assembly.markItems nesting.markers start.bare = start.bare :=
    (Assembly.markItems_cons rfl _ []).trans (by rw [Assembly.markItems_nil]; rfl)
  rw [root] at bare
  obtain ⟨nodes, finished, containers⟩ := Assembly.finish_bare bare
  refine ⟨nodes, ?_, containers⟩
  rw [Forest.ofEvents, ran, Except.bind]
  exact finished

/-- The events of a list that begins with the number three. Its first item has a list inside, of
which the first item is a task, and its second item is a task itself. -/
def tasksInLists : Nesting :=
  .construct (.list (some 3)) ⟨0, 37⟩ ⟨0, 37⟩
    (.construct .item ⟨0, 23⟩ ⟨0, 23⟩
      (.plain ⟨.text "a", ⟨3, 4⟩⟩ rfl
        (.construct (.list none) ⟨8, 23⟩ ⟨8, 23⟩
          (.construct .item ⟨8, 16⟩ ⟨8, 16⟩
            (.plain ⟨.taskMarker true, ⟨10, 13⟩⟩ rfl (.plain ⟨.text "b", ⟨14, 15⟩⟩ rfl .done))
            (.construct .item ⟨19, 23⟩ ⟨19, 23⟩ (.plain ⟨.text "c", ⟨21, 22⟩⟩ rfl .done) .done))
          .done))
      (.construct .item ⟨23, 32⟩ ⟨23, 32⟩
        (.plain ⟨.taskMarker false, ⟨26, 29⟩⟩ rfl (.plain ⟨.text "d", ⟨30, 31⟩⟩ rfl .done))
        (.construct .item ⟨32, 37⟩ ⟨32, 37⟩ (.plain ⟨.text "e", ⟨35, 36⟩⟩ rfl .done) .done)))
    .done

/-- The list inside does not disturb the numbers around it, and the task in between uses one up. -/
theorem list_items_numbered_tasks :
    Balanced tasksInLists.events ∧ tasksInLists.WellPlaced false ∧
    ∃ nodes, Forest.ofEvents "3. a\n   - [x] b\n   - c\n4. [ ] d\n5. e\n" tasksInLists.events =
        .ok nodes ∧
      Forest.skeleton nodes =
        [.container (.list true)
          [.container (.orderedItem 3)
            [.container (.list false)
              [.container (.taskItem true) [], .container .bulletItem []]],
          .container (.taskItem false) [],
          .container (.orderedItem 5) []]] := by
  have placed : tasksInLists.WellPlaced false := by
    simp [tasksInLists, Nesting.WellPlaced, Nesting.markers, Event.marker?, Opening.isList]
  obtain ⟨-, items⟩ := list_items_numbered "3. a\n   - [x] b\n   - c\n4. [ ] d\n5. e\n"
    tasksInLists.balanced_events
  exact ⟨tasksInLists.balanced_events, placed, (items tasksInLists rfl placed).1⟩

end TaggedMemos
