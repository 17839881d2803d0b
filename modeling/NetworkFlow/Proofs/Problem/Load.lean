import NetworkFlow.Proofs.Problem.Build

namespace NetworkFlow

open Quantity Network

/-- A value is numeric when a binary64 number is near it. -/
def Json.IsNumeric (value : Json) : Prop :=
  ∃ number, value.toReal = .ok number

namespace Problem

/-- The faults that are announced for a written problem are what it says, and the bounds of an edge
that are not finite, negative or out of order. -/
inductive Announced : Fault Number → Prop where
  | problem (cause : ProblemFault) : Announced (.problem cause)
  | capacityRange (tail head : Int) (capacity : Number) :
    Announced (.structural (.capacityRange tail head capacity))
  | lowerRange (tail head : Int) (lower : Number) :
    Announced (.structural (.lowerRange tail head lower))
  | lowerAboveCapacity (tail head : Int) (capacity lower : Number) :
    Announced (.structural (.lowerAboveCapacity tail head capacity lower))

/-- A value of another kind is refused for its shape, or for a number beyond the range. -/
inductive Misshapen : Fault Number → Prop where
  | shape (cause : ShapeFault) : Misshapen (.shape cause)
  | conversion : Misshapen (.overflow .conversion)

/-- A vertex has the kinds that a problem needs when it has an id and a numeric demand, if any. -/
structure TypedVertex (written : Json) : Prop where
  id : ∃ id, written.item "id" = .ok id
  demand : ∃ demand, written.optionalItem "demand" = .ok demand ∧ (demand.getD zero).IsNumeric

/-- An edge is complete when it has both ends, and its bounds are numeric, if any.
The capacity may be null. -/
structure CompleteEdge (written : Json) : Prop where
  tail : ∃ tail, written.item "tail" = .ok tail
  head : ∃ head, written.item "head" = .ok head
  capacity : ∃ capacity, written.optionalItem "capacity" = .ok capacity ∧
    (capacity.getD .null = .null ∨ (capacity.getD .null).IsNumeric)
  lower : ∃ lower, written.optionalItem "lower" = .ok lower ∧ (lower.getD zero).IsNumeric

/-- An edge has the kinds that a problem needs when it visibly lacks an end or is complete. -/
inductive TypedEdge (written : Json) : Prop where
  | lacking {name : String} (either : name = "tail" ∨ name = "head")
      (absent : written.holds name = .ok false)
  | complete (complete : CompleteEdge written)

/-- A value has the kinds that a problem needs when it is an object, and so have the vertices and
the edges in it when both are lists. -/
structure TypedPayload (payload : Json) : Prop where
  object : ∃ fields, payload = .object fields
  entries : ∀ vertices edges, part payload "vertices" "nodes" = .ok (.list vertices) →
    part payload "edges" "arcs" = .ok (.list edges) →
    (∀ vertex ∈ vertices, TypedVertex vertex) ∧ ∀ edge ∈ edges, TypedEdge edge

section Misshapen

variable (value : Json)

theorem item_misshapen (name : String) : RefusedOnly Misshapen (value.item name) := by
  unfold Json.item
  split
  · split
    · exact .of_ok rfl
    · exact .refusal (.shape _)
  · exact .refusal (.shape _)

theorem optionalItem_misshapen (name : String) :
    RefusedOnly Misshapen (value.optionalItem name) := by
  unfold Json.optionalItem
  split
  · exact .of_ok rfl
  · exact .refusal (.shape _)

theorem holds_misshapen (name : Text) : RefusedOnly Misshapen (value.holds name) := by
  unfold Json.holds
  split
  · exact .of_ok rfl
  · exact .of_ok rfl
  · exact .of_ok rfl
  · exact .refusal (.shape _)

theorem toReal_misshapen : RefusedOnly Misshapen value.toReal := by
  unfold Json.toReal
  split
  · next number =>
    cases kind : number.value with
    | inr binary =>
      have near : number.toBinary = .ok binary := by rw [Number.toBinary, kind]
      rw [near]
      exact .of_ok rfl
    | inl integer =>
      rw [Number.toBinary, kind]
      dsimp only
      split
      · exact .of_ok rfl
      · exact .refusal .conversion
  · split
    · exact .of_ok rfl
    · exact .refusal (.shape _)
  · exact .refusal (.shape _)

theorem part_misshapen (name second : String) : RefusedOnly Misshapen (part value name second) := by
  refine (holds_misshapen value _).bind fun held _ => ?_
  split
  · exact item_misshapen value name
  · exact (optionalItem_misshapen value second).bind fun found _ => .of_ok rfl

end Misshapen

section Allowed

variable {allowed : Fault Number → Prop} (announced : ∀ fault, Announced fault → allowed fault)
  {written : Json}
include announced

/-- A vertex is refused only for what is allowed when the readings of its fields are. -/
theorem readVertex_refusedOnly (id : RefusedOnly allowed (written.item "id"))
    (demand : RefusedOnly allowed (written.optionalItem "demand"))
    (numeric : ∀ demand, written.optionalItem "demand" = .ok demand →
      RefusedOnly allowed (demand.getD zero).toReal) (before : Vertices) :
    RefusedOnly allowed (readVertex before written) := by
  refine id.bind fun id _ => ?_
  dsimp only
  split
  · exact .refusal (announced _ (.problem _))
  · exact demand.bind fun demand given => (numeric demand given).bind fun _ _ => .of_ok rfl

/-- An edge between vertices is refused only for bounds that are out of range or out of order. -/
theorem addEdge_refusedOnly {network : Network Number} {tail head : Nat}
    (tailInside : tail < network.vertexCount) (headInside : head < network.vertexCount)
    (capacity lower : Binary64) :
    RefusedOnly allowed (network.addEdge tail head (.real capacity) (.real lower)) := by
  have bounded (binary : Binary64) : (isFinite (Number.real binary) : Except (Fault Number) Bool) =
      .ok binary.isFinite := rfl
  simp only [addEdge, checkVertex_natCast _ tailInside, checkVertex_natCast _ headInside, ok_bind,
    Load.check, bounded]
  refine RefusedOnly.bind ?_ fun _ _ => .of_ok rfl
  split
  · exact .refusal (announced _ (.capacityRange _ _ _))
  · split
    · exact .refusal (announced _ (.lowerRange _ _ _))
    · split
      · exact .refusal (announced _ (.lowerAboveCapacity _ _ _ _))
      · exact .of_ok rfl

/-- An edge is refused only for what is allowed when the readings of its fields are. -/
theorem readEdge_refusedOnly (tail : RefusedOnly allowed (written.item "tail"))
    (head : RefusedOnly allowed (written.item "head"))
    (capacity : RefusedOnly allowed (written.optionalItem "capacity"))
    (capacityNumeric : ∀ capacity, written.optionalItem "capacity" = .ok (some capacity) →
      capacity ≠ .null → RefusedOnly allowed capacity.toReal)
    (lower : RefusedOnly allowed (written.optionalItem "lower"))
    (lowerNumeric : ∀ lower, written.optionalItem "lower" = .ok lower →
      RefusedOnly allowed (lower.getD zero).toReal)
    {labels : List Text} {network : Network Number}
    (count : network.vertexCount = labels.length) :
    RefusedOnly allowed (readEdge labels network written) := by
  have endpoints (role : String) (name : Text) :
      RefusedOnly allowed (endpoint labels role name) := by
    intro fault refused
    obtain ⟨cause, rfl⟩ := endpoint_onlyProblems role name fault refused
    exact announced _ (.problem cause)
  have inside {role : String} {name : Text} {vertex : Nat}
      (found : endpoint labels role name = .ok vertex) : vertex < network.vertexCount := by
    obtain ⟨inside, -⟩ := List.idxOf?_eq_some_iff.mp (endpoint_eq_ok found)
    rwa [count]
  have capacities (tail head : Text) : RefusedOnly allowed (capacityOf written tail head) := by
    refine capacity.bind fun capacity _ => ?_
    split
    · exact .refusal (announced _ (.problem _))
    · exact .refusal (announced _ (.problem _))
    · exact .of_ok rfl
  have given {tail head : Text} {capacity : Json}
      (chosen : capacityOf written tail head = .ok capacity) :
      written.optionalItem "capacity" = .ok (some capacity) ∧ capacity ≠ .null := by
    obtain ⟨field, found, chosen⟩ := ok_of_bind chosen
    split at chosen
    · cases chosen
    · cases chosen
    · next present =>
      obtain rfl := Except.ok.inj chosen
      exact ⟨found, present⟩
  refine tail.bind fun tailName _ => head.bind fun headName _ => ?_
  refine (endpoints _ _).bind fun first firstFound => ?_
  refine (endpoints _ _).bind fun second secondFound => ?_
  refine (capacities _ _).bind fun capacity chosen => ?_
  obtain ⟨found, present⟩ := given chosen
  refine (capacityNumeric capacity found present).bind fun most mostRead => ?_
  refine lower.bind fun lower lowerFound => ?_
  refine (lowerNumeric lower lowerFound).bind fun least leastRead => ?_
  obtain ⟨most, rfl⟩ := real_of_toReal mostRead
  obtain ⟨least, rfl⟩ := real_of_toReal leastRead
  exact addEdge_refusedOnly announced (inside firstFound) (inside secondFound) most least

/-- A value is refused only for what is allowed when the readings of its parts are. -/
theorem ofJson_refusedOnly {payload : Json}
    (vertices : RefusedOnly allowed (part payload "vertices" "nodes"))
    (edges : RefusedOnly allowed (part payload "edges" "arcs"))
    (entries : ∀ vertices edges, part payload "vertices" "nodes" = .ok (.list vertices) →
      part payload "edges" "arcs" = .ok (.list edges) →
      (∀ vertex ∈ vertices, ∀ before, RefusedOnly allowed (readVertex before vertex)) ∧
      ∀ edge ∈ edges, RefusedOnly allowed (normalize edge) ∧
        ∀ normal, normalize edge = .ok normal → ∀ (labels : List Text) (network : Network Number),
          network.vertexCount = labels.length →
          RefusedOnly allowed (readEdge labels network normal))
    (source : RefusedOnly allowed (payload.optionalItem "source"))
    (sink : RefusedOnly allowed (payload.optionalItem "sink")) :
    RefusedOnly allowed (ofJson payload) := by
  refine vertices.bind fun vertexPart vertexFound => edges.bind fun edgePart edgeFound => ?_
  dsimp only
  split
  · next vertexList edgeList =>
    obtain ⟨vertex, edge⟩ := entries vertexList edgeList vertexFound edgeFound
    refine (RefusedOnly.mapM fun written member => (edge written member).1).bind
      fun normals normalized => ?_
    refine source.bind fun first _ => sink.bind fun last _ => ?_
    refine build_refusedOnly (fun cause => announced _ (.problem cause)) _ _ vertex ?_
    intro normal member
    obtain ⟨written, inside, ok⟩ := mapM_member normalized member
    exact (edge written inside).2 normal ok
  · exact .refusal (announced _ (.problem _))

/-- An edge is normalized, or refused only for what is allowed, when the readings of its fields
are refused only for what is allowed. -/
theorem normalize_refusedOnly (tailHeld : RefusedOnly allowed (written.holds "tail"))
    (headHeld : RefusedOnly allowed (written.holds "head"))
    (fields : written.holds "tail" = .ok true → written.holds "head" = .ok true →
      RefusedOnly allowed (written.item "tail") ∧ RefusedOnly allowed (written.item "head") ∧
      RefusedOnly allowed (written.optionalItem "capacity") ∧
      RefusedOnly allowed (written.optionalItem "lower")) :
    RefusedOnly allowed (normalize written) := by
  refine tailHeld.bind fun first firstHeld => ?_
  dsimp only
  cases first with
  | false => exact .refusal (announced _ (.problem _))
  | true =>
    refine headHeld.bind fun second secondHeld => ?_
    cases second with
    | false => exact .refusal (announced _ (.problem _))
    | true =>
      obtain ⟨tail, head, capacity, lower⟩ := fields firstHeld secondHeld
      exact tail.bind fun _ _ => head.bind fun _ _ => capacity.bind fun _ _ =>
        lower.bind fun _ _ => .of_ok rfl

end Allowed

/-- An edge that is normalized has both ends, and its other fields get what stands for nothing
when they are absent. -/
theorem normalize_eq_ok {written normal : Json} (ok : normalize written = .ok normal) :
    written.holds "tail" = .ok true ∧ written.holds "head" = .ok true ∧
    ∃ tail head capacity lower, written.item "tail" = .ok tail ∧ written.item "head" = .ok head ∧
      written.optionalItem "capacity" = .ok capacity ∧ written.optionalItem "lower" = .ok lower ∧
      normal = .object [("tail", tail), ("head", head), ("capacity", capacity.getD .null),
        ("lower", lower.getD zero)] := by
  obtain ⟨first, firstHeld, ok⟩ := ok_of_bind ok
  dsimp only at ok
  cases first with
  | false => cases ok
  | true =>
    obtain ⟨second, secondHeld, ok⟩ := ok_of_bind ok
    cases second with
    | false => cases ok
    | true =>
      obtain ⟨tail, tails, ok⟩ := ok_of_bind ok
      obtain ⟨head, heads, ok⟩ := ok_of_bind ok
      obtain ⟨capacity, capacities, ok⟩ := ok_of_bind ok
      obtain ⟨lower, lowers, ok⟩ := ok_of_bind ok
      exact ⟨firstHeld, secondHeld, tail, head, capacity, lower, tails, heads, capacities, lowers,
        (Except.ok.inj ok).symm⟩

/-- Whatever a value is, its refusal is announced or comes from a value of another kind. -/
theorem ofJson_announcedOrMisshapen (payload : Json) :
    RefusedOnly (fun fault => Announced fault ∨ Misshapen fault) (ofJson payload) := by
  have announced (fault : Fault Number) (is : Announced fault) :
      Announced fault ∨ Misshapen fault := Or.inl is
  have wider {β : Type} {outcome : Except (Fault Number) β}
      (misshapen : RefusedOnly Misshapen outcome) :
      RefusedOnly (fun fault => Announced fault ∨ Misshapen fault) outcome :=
    misshapen.mono fun _ => Or.inr
  refine ofJson_refusedOnly announced (wider (part_misshapen _ _ _)) (wider (part_misshapen _ _ _))
    ?_ (wider (optionalItem_misshapen _ _)) (wider (optionalItem_misshapen _ _))
  intro vertices edges _ _
  refine ⟨fun vertex _ before => readVertex_refusedOnly announced
    (wider (item_misshapen _ _)) (wider (optionalItem_misshapen _ _))
    (fun _ _ => wider (toReal_misshapen _)) before, fun edge _ => ⟨?_, ?_⟩⟩
  · exact normalize_refusedOnly announced (wider (holds_misshapen _ _))
      (wider (holds_misshapen _ _)) fun _ _ => ⟨wider (item_misshapen _ _),
        wider (item_misshapen _ _), wider (optionalItem_misshapen _ _),
        wider (optionalItem_misshapen _ _)⟩
  · intro normal _ labels network count
    exact readEdge_refusedOnly announced (wider (item_misshapen _ _)) (wider (item_misshapen _ _))
      (wider (optionalItem_misshapen _ _)) (fun _ _ _ => wider (toReal_misshapen _))
      (wider (optionalItem_misshapen _ _)) (fun _ _ => wider (toReal_misshapen _)) count

/-- A value in which one field may stand or not is an object, a list or a text. -/
theorem holds_ok_of_holds {written : Json} {name : Text} {held : Bool}
    (ok : written.holds name = .ok held) (other : Text) :
    ∃ held, written.holds other = .ok held := by
  cases written with
  | object fields => exact ⟨_, rfl⟩
  | list items => exact ⟨_, rfl⟩
  | text content => exact ⟨_, rfl⟩
  | null => cases ok
  | number value => cases ok

/-- A value with a field is an object, and it holds the name of the field. -/
theorem holds_of_item {written : Json} {name : String} {found : Json}
    (ok : written.item name = .ok found) :
    written.holds name = .ok true := by
  cases written with
  | object fields =>
    simp only [Json.item] at ok
    split at ok
    · next present => simp [Json.holds, present]
    · cases ok
  | list items => cases ok
  | text content => cases ok
  | null => cases ok
  | number value => cases ok

section Typed

variable {written normal : Json}

theorem TypedVertex.readVertex (typed : TypedVertex written) (before : Vertices) :
    RefusedOnly Announced (Problem.readVertex before written) := by
  obtain ⟨⟨id, given⟩, demand, asked, number, near⟩ := typed
  refine readVertex_refusedOnly (fun _ announced => announced) (.of_ok given) (.of_ok asked)
    ?_ before
  intro other same
  obtain rfl := Except.ok.inj (asked.symm.trans same)
  exact .of_ok near

theorem TypedEdge.normalize (typed : TypedEdge written) :
    RefusedOnly Announced (Problem.normalize written) := by
  cases typed with
  | lacking either absent =>
    obtain ⟨first, firstHeld⟩ := holds_ok_of_holds absent "tail"
    obtain ⟨second, secondHeld⟩ := holds_ok_of_holds absent "head"
    refine normalize_refusedOnly (fun _ => id) (.of_ok firstHeld) (.of_ok secondHeld) ?_
    intro tail head
    rcases either with rfl | rfl
    · cases absent.symm.trans tail
    · cases absent.symm.trans head
  | complete complete =>
    obtain ⟨⟨tail, tails⟩, ⟨head, heads⟩, ⟨capacity, capacities, -⟩, ⟨lower, lowers, -⟩⟩ := complete
    exact normalize_refusedOnly (fun _ => id) (.of_ok (holds_of_item tails))
      (.of_ok (holds_of_item heads)) fun _ _ => ⟨.of_ok tails, .of_ok heads, .of_ok capacities,
        .of_ok lowers⟩

theorem TypedEdge.readEdge (typed : TypedEdge written) (ok : Problem.normalize written = .ok normal)
    {labels : List Text} {network : Network Number}
    (count : network.vertexCount = labels.length) :
    RefusedOnly Announced (Problem.readEdge labels network normal) := by
  obtain ⟨tailHeld, headHeld, tail, head, capacity, lower, tails, heads, capacities, lowers, rfl⟩ :=
    normalize_eq_ok ok
  cases typed with
  | lacking either absent =>
    rcases either with rfl | rfl
    · cases absent.symm.trans tailHeld
    · cases absent.symm.trans headHeld
  | complete complete =>
    obtain ⟨-, -, ⟨other, others, most⟩, ⟨another, anothers, least, near⟩⟩ := complete
    obtain rfl := Except.ok.inj (capacities.symm.trans others)
    obtain rfl := Except.ok.inj (lowers.symm.trans anothers)
    refine readEdge_refusedOnly (fun _ => id) (.of_ok rfl) (.of_ok rfl) (.of_ok rfl) ?_
      (.of_ok rfl) ?_ count
    · intro given found present
      obtain rfl := Option.some.inj (Except.ok.inj found)
      rcases most with null | ⟨number, near⟩
      · exact absurd null present
      · exact .of_ok near
    · intro given found
      obtain rfl := Except.ok.inj found
      exact .of_ok near

/-- A value of the kinds that a problem needs is refused only for announced faults. -/
theorem TypedPayload.ofJson {payload : Json} (typed : TypedPayload payload) :
    RefusedOnly Announced (Problem.ofJson payload) := by
  obtain ⟨⟨fields, rfl⟩, entries⟩ := typed
  have parts (name second : String) :
      RefusedOnly Announced (part (.object fields) name second) := by
    refine RefusedOnly.bind (.of_ok rfl) fun held found => ?_
    split
    · next present =>
      obtain rfl := Except.ok.inj found
      obtain ⟨value, stands⟩ := Option.isSome_iff_exists.mp present
      rw [Json.item, stands]
      exact .of_ok rfl
    · exact .of_ok rfl
  refine ofJson_refusedOnly (fun _ => id) (parts _ _) (parts _ _) ?_ (.of_ok rfl) (.of_ok rfl)
  intro vertices edges vertexFound edgeFound
  obtain ⟨vertex, edge⟩ := entries vertices edges vertexFound edgeFound
  exact ⟨fun written member => (vertex written member).readVertex, fun written member =>
    ⟨(edge written member).normalize, fun normal ok labels network count =>
      (edge written member).readEdge ok count⟩⟩

/-- A part of a value is found in objects only. -/
theorem exists_of_part {payload found : Json} {name second : String}
    (ok : part payload name second = .ok found) : ∃ fields, payload = .object fields := by
  obtain ⟨held, -, ok⟩ := ok_of_bind ok
  have object : (∃ value, payload.item name = .ok value) ∨
      ∃ value, payload.optionalItem second = .ok value := by
    split at ok
    · exact Or.inl ⟨_, ok⟩
    · obtain ⟨value, found, -⟩ := ok_of_bind ok
      exact Or.inr ⟨value, found⟩
  cases payload with
  | object fields => exact ⟨fields, rfl⟩
  | list items => rcases object with ⟨_, none⟩ | ⟨_, none⟩ <;> cases none
  | text content => rcases object with ⟨_, none⟩ | ⟨_, none⟩ <;> cases none
  | null => rcases object with ⟨_, none⟩ | ⟨_, none⟩ <;> cases none
  | number value => rcases object with ⟨_, none⟩ | ⟨_, none⟩ <;> cases none

/-- A value that gives a problem has the kinds that a problem needs. -/
theorem typedPayload_of_ok {payload : Json} {problem : Problem Number}
    (ok : ofJson payload = .ok problem) : TypedPayload payload := by
  obtain ⟨vertexPart, vertexFound, ok⟩ := ok_of_bind ok
  obtain ⟨edgePart, edgeFound, ok⟩ := ok_of_bind ok
  refine ⟨exists_of_part vertexFound, fun vertices edges vertexList edgeList => ?_⟩
  obtain rfl := Except.ok.inj (vertexList.symm.trans vertexFound)
  obtain rfl := Except.ok.inj (edgeList.symm.trans edgeFound)
  obtain ⟨normals, normalized, ok⟩ := ok_of_bind ok
  obtain ⟨source, -, ok⟩ := ok_of_bind ok
  obtain ⟨sink, -, built⟩ := ok_of_bind ok
  have writes := writes_of_build built
  refine ⟨fun vertex member => ?_, fun edge member => ?_⟩
  · obtain ⟨position, inside, rfl⟩ := List.getElem_of_mem member
    obtain ⟨id, given, -⟩ := writes.labels.get inside (writes.labels.length_eq ▸ inside)
    obtain ⟨demand, asked, near⟩ := writes.demands.get inside (writes.demands.length_eq ▸ inside)
    exact ⟨⟨id, given⟩, demand, asked, _, near⟩
  · obtain ⟨normal, listed, ok⟩ := mapM_covers normalized member
    obtain ⟨-, -, tail, head, capacity, lower, tails, heads, capacities, lowers, rfl⟩ :=
      normalize_eq_ok ok
    obtain ⟨position, inside, same⟩ := List.getElem_of_mem listed
    have as := writes.edges.get inside (writes.edges.length_eq ▸ inside)
    rw [List.get_eq_getElem, same] at as
    refine .complete ⟨⟨tail, tails⟩, ⟨head, heads⟩, ⟨capacity, capacities, Or.inr ?_⟩,
      ⟨lower, lowers, ?_⟩⟩
    · obtain ⟨other, given, near⟩ := as.capacity
      obtain rfl := Option.some.inj (Except.ok.inj given)
      exact ⟨_, near⟩
    · obtain ⟨other, given, near⟩ := as.lower
      obtain rfl := Except.ok.inj given
      exact ⟨_, near⟩

end Typed

/-- A file that is no JSON text is refused while it is read. Any other file is refused for
announced faults only when its values have the kinds that a problem needs, it gives a problem only
then, and any other fault comes from a value of another kind. -/
theorem load_refusedOnly (room : Nat) {bytes : ByteArray} {text : String}
    (decoded : String.fromUTF8? bytes = some text) :
    (∀ fault, Json.read room text = .error fault →
      load room (some bytes) = .error (.reading fault)) ∧
    ∀ payload, Json.read room text = .ok payload →
      (TypedPayload payload → RefusedOnly Announced (load room (some bytes))) ∧
      (∀ problem, load room (some bytes) = .ok problem → TypedPayload payload) ∧
      RefusedOnly (fun fault => Announced fault ∨ Misshapen fault) (load room (some bytes)) := by
  have loaded : load room (some bytes) =
      (Json.read room text).mapError Fault.reading >>= ofJson := by
    simp only [load, decoded]
  refine ⟨fun fault refused => ?_, fun payload read => ?_⟩
  · rw [loaded, refused]
    rfl
  · have same : load room (some bytes) = ofJson payload := by
      rw [loaded, read]
      rfl
    rw [same]
    exact ⟨TypedPayload.ofJson, fun _ => typedPayload_of_ok, ofJson_announcedOrMisshapen payload⟩

/-- A demand may be written as a numeral. -/
def numeralDemand : String :=
  "\x7b\"vertices\": [\x7b\"id\": 1, \"demand\": \"2.5\"\x7d], \"edges\": []\x7d"

/-- A demand that is null is not a missing one. -/
def nullDemand : String :=
  "\x7b\"vertices\": [\x7b\"id\": 1, \"demand\": null\x7d], \"edges\": []\x7d"

/-- A numeral has the kind that a demand needs, and null has not. -/
theorem load_refusedOnly_demands :
    (∃ payload problem, Json.read fileRoom numeralDemand = .ok payload ∧
      load fileRoom (some numeralDemand.toUTF8) = .ok problem ∧ TypedPayload payload) ∧
    ∃ payload fault, Json.read fileRoom nullDemand = .ok payload ∧
      load fileRoom (some nullDemand.toUTF8) = .error fault ∧ Misshapen fault ∧
      ¬TypedPayload payload := by
  have decoded : String.fromUTF8? numeralDemand.toUTF8 = some numeralDemand := by decide +kernel
  have decodedToo : String.fromUTF8? nullDemand.toUTF8 = some nullDemand := by decide +kernel
  have outcome : ((load fileRoom (some numeralDemand.toUTF8)).map fun _ => ()) = .ok () := by
    decide +kernel
  have refusal : ((load fileRoom (some nullDemand.toUTF8)).map fun _ => ()) =
      .error (.shape .wrongKind) := by decide +kernel
  have parsed : ((Json.read fileRoom numeralDemand).map fun _ => ()) = .ok () := by decide +kernel
  have parsedToo : ((Json.read fileRoom nullDemand).map fun _ => ()) = .ok () := by decide +kernel
  refine ⟨?_, ?_⟩
  · obtain ⟨payload, read, -⟩ := ok_of_map parsed
    obtain ⟨problem, loaded, -⟩ := ok_of_map outcome
    have told := (load_refusedOnly fileRoom decoded).2 payload read
    exact ⟨payload, problem, read, loaded, told.2.1 problem loaded⟩
  · obtain ⟨payload, read, -⟩ := ok_of_map parsedToo
    have told := (load_refusedOnly fileRoom decodedToo).2 payload read
    cases loaded : load fileRoom (some nullDemand.toUTF8) with
    | ok problem =>
      rw [loaded] at refusal
      cases refusal
    | error fault =>
      rw [loaded] at refusal
      obtain rfl : fault = .shape .wrongKind := Except.error.inj refusal
      refine ⟨payload, _, read, rfl, .shape _, fun typed => ?_⟩
      cases told.1 typed _ loaded

/-- A text that ends within an object is refused for a fault that is not announced. -/
theorem load_unannounced_brace :
    ((load fileRoom (some "\x7b".toUTF8)).map fun _ => ()) = .error (.reading .malformed) ∧
      ¬Announced (.reading .malformed) :=
  ⟨by decide +kernel, nofun⟩

end Problem
end NetworkFlow
