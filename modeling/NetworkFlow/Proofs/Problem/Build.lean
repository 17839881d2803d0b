import NetworkFlow.Problem
import NetworkFlow.Proofs.Arithmetic.Finite
import NetworkFlow.Proofs.Arithmetic.Least
import NetworkFlow.Proofs.Network.Assembled

namespace NetworkFlow

open Quantity ExactQuantity Network

namespace Problem

/-- An edge is as it is written when its ends have the names that are given, its bounds are
the nearest numbers to those that are given, and nothing is on it yet. -/
structure WritesEdge (labels : List Text) (written : Json) (edge : Edge Number) : Prop where
  tail : ∃ name, written.item "tail" = .ok name ∧ labels[edge.tail]? = some name.display
  head : ∃ name, written.item "head" = .ok name ∧ labels[edge.head]? = some name.display
  capacity : ∃ capacity, written.optionalItem "capacity" = .ok (some capacity) ∧
    capacity.toReal = .ok edge.capacity
  lower : ∃ lower, written.optionalItem "lower" = .ok lower ∧ match lower with
    | some lower => lower.toReal = .ok edge.lower
    | none => edge.lower = .real .zero
  bounds : ∃ (capacity lower : Binary64) (most least : Rat), edge.capacity = .real capacity ∧
    edge.lower = .real lower ∧ capacity.rational? = some most ∧ lower.rational? = some least ∧
    0 ≤ least ∧ least ≤ most
  flow : edge.flow = .real .zero
  offset : edge.offset = .real .zero

/-- A problem is as it is written when its labels are the texts of the ids in their order,
no two of them are the same, and the edges and the terminals are where their names stand. -/
structure Writes (vertices edges : List Json) (source sink : Json) (problem : Problem Number) :
    Prop where
  labels : List.Forall₂ (fun vertex label => ∃ id, vertex.item "id" = .ok id ∧
    id.display = label) vertices problem.labels
  distinct : problem.labels.Nodup
  demands : List.Forall₂ (fun vertex demand => ∃ given, vertex.optionalItem "demand" = .ok given ∧
    (given.getD zero).toReal = .ok demand) vertices problem.demands
  positions : ∀ vertex (inside : vertex < problem.labels.length),
    (problem.indexOf problem.labels[vertex] : Except (Fault Number) Nat) = .ok vertex
  vertexCount : problem.network.vertexCount = problem.labels.length
  assembled : problem.network.Assembled
  edges : List.Forall₂ (WritesEdge problem.labels) edges problem.network.edges.toList
  terminals : (source = .null ∧ sink = .null ∧ problem.source = none ∧ problem.sink = none) ∨
    ∃ first last : Nat, source ≠ .null ∧ sink ≠ .null ∧ problem.source = some (first : Int) ∧
      problem.sink = some (last : Int) ∧ problem.labels[first]? = some source.display ∧
      problem.labels[last]? = some sink.display

/-- Lists are read from the first entry to the last, the vertices before the edges. -/
theorem build_list (vertices edges : List Json) (source sink : Json) :
    build (.list vertices) (.list edges) source sink = do
      let read ← vertices.foldlM readVertex ⟨[], []⟩
      let network ← edges.foldlM (readEdge read.labels) (.empty read.labels.length)
      let ends ← terminals read.labels source sink
      return ⟨⟨read.labels, read.demands, ends.1, ends.2⟩, network⟩ := rfl

section Success

variable {labels : List Text}

/-- The position of a label has the label. -/
theorem getElem?_of_idxOf? {name : Text} {vertex : Nat} (found : labels.idxOf? name = some vertex) :
    labels[vertex]? = some name := by
  obtain ⟨inside, same, -⟩ := List.idxOf?_eq_some_iff.mp found
  rw [List.getElem?_eq_getElem inside, same]

/-- Different labels are found at their positions. -/
theorem idxOf?_getElem (distinct : labels.Nodup) {vertex : Nat} (inside : vertex < labels.length) :
    labels.idxOf? labels[vertex] = some vertex := by
  refine List.idxOf?_eq_some_iff.mpr ⟨inside, rfl, ?_⟩
  intro earlier before same
  exact before.ne ((distinct.getElem_inj_iff).mp same)

theorem endpoint_eq_ok {role : String} {name : Text} {vertex : Nat}
    (found : endpoint labels role name = .ok vertex) : labels.idxOf? name = some vertex := by
  rw [endpoint] at found
  split at found
  · next position => rwa [← Except.ok.inj found]
  · cases found

theorem terminal_eq_ok {role : String} {value : Json} {vertex : Int}
    (found : terminal labels role value = .ok vertex) :
    ∃ position : Nat, vertex = position ∧ labels[position]? = some value.display := by
  rw [terminal] at found
  split at found
  · next position at? => exact ⟨position, (Except.ok.inj found).symm, getElem?_of_idxOf? at?⟩
  · cases found

/-- A vertex that is read has a new label. -/
theorem readVertex_eq_ok {before after : Vertices} {vertex : Json}
    (read : readVertex before vertex = .ok after) :
    ∃ id written demand, vertex.item "id" = .ok id ∧ id.display ∉ before.labels ∧
      vertex.optionalItem "demand" = .ok written ∧ (written.getD zero).toReal = .ok demand ∧
      after = ⟨before.labels ++ [id.display], before.demands ++ [demand]⟩ := by
  obtain ⟨id, given, read⟩ := ok_of_bind read
  dsimp only at read
  split at read
  · cases read
  · next fresh =>
    obtain ⟨written, asked, read⟩ := ok_of_bind read
    obtain ⟨demand, near, read⟩ := ok_of_bind read
    exact ⟨id, written, demand, given, by simpa using fresh, asked, near, (Except.ok.inj read).symm⟩

theorem real_of_toReal {value : Json} {number : Number} (read : value.toReal = .ok number) :
    ∃ binary, number = .real binary := by
  cases value with
  | number given =>
    change ((given.toBinary.map Number.real).mapError Fault.overflow : Except _ _) = _ at read
    cases near : given.toBinary with
    | error fault =>
      rw [near] at read
      cases read
    | ok binary =>
      rw [near] at read
      exact ⟨binary, (Except.ok.inj read).symm⟩
  | text content =>
    rw [Json.toReal] at read
    split at read
    · next binary _ => exact ⟨binary, (Except.ok.inj read).symm⟩
    · cases read
  | null => cases read
  | list items => cases read
  | object fields => cases read

theorem rational_of_isFinite {binary : Binary64}
    (finite : isFinite (Number.real binary) = .ok true) :
    ∃ value, binary.rational? = some value := by
  cases binary with
  | nan => cases finite
  | infinity negative => cases finite
  | finite negative units => exact ⟨_, rfl⟩

/-- Real bounds that were accepted are in order. -/
theorem bounds_of_check {capacity lower : Binary64} {flow offset : Number} {tail head : Int}
    (checked : Load.check ⟨.real capacity, .real lower, flow, offset⟩ tail head = .ok ()) :
    ∃ most least : Rat, capacity.rational? = some most ∧ lower.rational? = some least ∧
      0 ≤ least ∧ least ≤ most := by
  obtain ⟨⟨bounded, -⟩, ⟨boundedToo, nonneg⟩, ordered⟩ := Load.check_eq_ok.mp checked
  obtain ⟨most, mostKnown⟩ := rational_of_isFinite bounded
  obtain ⟨least, leastKnown⟩ := rational_of_isFinite boundedToo
  have capacities : value? (Number.real capacity) = some most := mostKnown
  have lowers : value? (Number.real lower) = some least := leastKnown
  rw [isNegative_eq_decide lowers, decide_eq_false_iff_not, not_lt] at nonneg
  rw [less_eq_decide capacities lowers, decide_eq_false_iff_not, not_lt] at ordered
  exact ⟨most, least, mostKnown, leastKnown, nonneg, ordered⟩

/-- An edge that is read is added to the network as it is written. -/
theorem readEdge_eq_ok {before after : Network Number} {written : Json}
    (read : readEdge labels before written = .ok after) :
    ∃ edge, after.edges.toList = before.edges.toList ++ [edge] ∧ WritesEdge labels written edge ∧
      ∃ tail head : Int, before.addEdge tail head edge.capacity edge.lower = .ok after := by
  obtain ⟨tail, tailGiven, read⟩ := ok_of_bind read
  obtain ⟨head, headGiven, read⟩ := ok_of_bind read
  obtain ⟨tailVertex, tailFound, read⟩ := ok_of_bind read
  obtain ⟨headVertex, headFound, read⟩ := ok_of_bind read
  obtain ⟨given, capacityGiven, read⟩ := ok_of_bind read
  obtain ⟨capacity, capacityRead, read⟩ := ok_of_bind read
  obtain ⟨lowerGiven, lowerFound, read⟩ := ok_of_bind read
  obtain ⟨lower, lowerRead, added⟩ := ok_of_bind read
  obtain ⟨first, second, equalTail, equalHead, -, -, checked, rfl⟩ := addEdge_eq_ok added
  obtain rfl : tailVertex = first := Int.ofNat.inj equalTail
  obtain rfl : headVertex = second := Int.ofNat.inj equalHead
  obtain ⟨capacity, rfl⟩ := real_of_toReal capacityRead
  obtain ⟨lower, rfl⟩ := real_of_toReal lowerRead
  refine ⟨⟨⟨.real capacity, .real lower, .real .zero, .real .zero⟩, tailVertex, headVertex,
    before.edgeCount⟩, Array.toList_push, ?_, _, _, added⟩
  constructor
  case tail => exact ⟨tail, tailGiven, getElem?_of_idxOf? (endpoint_eq_ok tailFound)⟩
  case head => exact ⟨head, headGiven, getElem?_of_idxOf? (endpoint_eq_ok headFound)⟩
  case capacity =>
    obtain ⟨field, fieldGiven, chosen⟩ := ok_of_bind capacityGiven
    refine ⟨given, ?_, capacityRead⟩
    split at chosen
    · cases chosen
    · cases chosen
    · rw [fieldGiven, ← Except.ok.inj chosen]
  case lower =>
    refine ⟨lowerGiven, lowerFound, ?_⟩
    cases lowerGiven with
    | some given => exact lowerRead
    | none => exact (Except.ok.inj lowerRead).symm
  case bounds =>
    obtain ⟨most, least, mostKnown, leastKnown, nonneg, ordered⟩ := bounds_of_check checked
    exact ⟨capacity, lower, most, least, rfl, rfl, mostKnown, leastKnown, nonneg, ordered⟩
  case flow => rfl
  case offset => rfl

/-- The terminals are both absent, or they stand where their names do. -/
theorem terminals_eq_ok {source sink : Json} {ends : Option Int × Option Int}
    (found : terminals labels source sink = .ok ends) :
    (source = .null ∧ sink = .null ∧ ends = (none, none)) ∨
    ∃ first last : Nat, source ≠ .null ∧ sink ≠ .null ∧
      ends = (some (first : Int), some (last : Int)) ∧
      labels[first]? = some source.display ∧ labels[last]? = some sink.display := by
  unfold terminals at found
  split at found
  · exact Or.inl ⟨rfl, rfl, (Except.ok.inj found).symm⟩
  · cases found
  · cases found
  · next noSource noSink _ =>
    obtain ⟨start, startFound, found⟩ := ok_of_bind found
    obtain ⟨finish, finishFound, found⟩ := ok_of_bind found
    obtain ⟨first, rfl, firstNamed⟩ := terminal_eq_ok startFound
    obtain ⟨last, rfl, lastNamed⟩ := terminal_eq_ok finishFound
    exact Or.inr ⟨first, last, noSource, noSink, (Except.ok.inj found).symm, firstNamed,
      lastNamed⟩

/-- The vertices that were read have the texts of their ids as labels, and no two the same. -/
theorem readVertices_eq_ok {vertices : List Json} {read : Vertices}
    (folded : vertices.foldlM readVertex ⟨[], []⟩ = .ok read) :
    List.Forall₂ (fun vertex label => ∃ id, vertex.item "id" = .ok id ∧ id.display = label)
      vertices read.labels ∧ read.labels.Nodup ∧
    List.Forall₂ (fun vertex demand => ∃ given, vertex.optionalItem "demand" = .ok given ∧
      (given.getD zero).toReal = .ok demand) vertices read.demands := by
  refine foldlM_induction (fun done (state : Vertices) =>
    List.Forall₂ (fun vertex label => ∃ id, vertex.item "id" = .ok id ∧ id.display = label)
      done state.labels ∧ state.labels.Nodup ∧
    List.Forall₂ (fun vertex demand => ∃ given, vertex.optionalItem "demand" = .ok given ∧
      (given.getD zero).toReal = .ok demand) done state.demands)
    ⟨.nil, List.nodup_nil, .nil⟩ ?_ folded
  rintro done vertex before after ⟨labelled, distinct, asked⟩ step
  obtain ⟨id, written, demand, given, fresh, asks, near, rfl⟩ := readVertex_eq_ok step
  refine ⟨List.rel_append labelled (.cons ⟨id, given, rfl⟩ .nil), ?_,
    List.rel_append asked (.cons ⟨written, asks, near⟩ .nil)⟩
  exact distinct.append (List.nodup_singleton _) (List.disjoint_singleton.mpr fresh)

/-- The edges that were read are in the network as they are written. -/
theorem readEdges_eq_ok {edges : List Json} {network : Network Number}
    (folded : edges.foldlM (readEdge labels) (.empty labels.length) = .ok network) :
    network.vertexCount = labels.length ∧ network.Assembled ∧
      List.Forall₂ (WritesEdge labels) edges network.edges.toList := by
  refine foldlM_induction (fun done (state : Network Number) =>
    state.vertexCount = labels.length ∧ state.Assembled ∧
      List.Forall₂ (WritesEdge labels) done state.edges.toList)
    ⟨vertexCount_empty _, assembled_empty _, .nil⟩ ?_ folded
  rintro done written before after ⟨count, assembled, all⟩ step
  obtain ⟨edge, edges, writes, tail, head, added⟩ := readEdge_eq_ok step
  refine ⟨?_, .addEdge assembled added, ?_⟩
  · obtain ⟨first, second, -, -, -, -, -, rfl⟩ := addEdge_eq_ok added
    rw [vertexCount_attach, count]
  · rw [edges]
    exact List.rel_append all (.cons writes .nil)

/-- A problem that is built is as it is written. -/
theorem writes_of_build {vertices edges : List Json} {source sink : Json}
    {problem : Problem Number}
    (built : build (.list vertices) (.list edges) source sink = .ok problem) :
    Writes vertices edges source sink problem := by
  rw [build_list] at built
  obtain ⟨read, readAll, built⟩ := ok_of_bind built
  obtain ⟨network, assembles, built⟩ := ok_of_bind built
  obtain ⟨ends, ended, built⟩ := ok_of_bind built
  obtain ⟨labelled, distinct, asked⟩ := readVertices_eq_ok readAll
  obtain ⟨count, assembled, all⟩ := readEdges_eq_ok assembles
  rw [← Except.ok.inj built]
  constructor
  case labels => exact labelled
  case distinct => exact distinct
  case demands => exact asked
  case positions =>
    intro vertex inside
    rw [Query.indexOf, idxOf?_getElem distinct inside]
  case vertexCount => exact count
  case assembled => exact assembled
  case edges => exact all
  case terminals =>
    rcases terminals_eq_ok ended with ⟨noSource, noSink, none⟩ |
      ⟨first, last, someSource, someSink, some, firstNamed, lastNamed⟩
    · exact Or.inl ⟨noSource, noSink, by rw [none], by rw [none]⟩
    · exact Or.inr ⟨first, last, someSource, someSink, by rw [some], by rw [some], firstNamed,
        lastNamed⟩

/-- A problem that is built from any two values is written by the lists of their elements. -/
theorem exists_writes_of_build {vertices edges source sink : Json} {problem : Problem Number}
    (built : build vertices edges source sink = .ok problem) :
    ∃ first second, vertices.elements = .ok first ∧ edges.elements = .ok second ∧
      Writes first second source sink problem := by
  obtain ⟨first, listed, made⟩ := ok_of_bind built
  obtain ⟨read, readAll, made⟩ := ok_of_bind made
  obtain ⟨second, listedToo, made⟩ := ok_of_bind made
  refine ⟨first, second, listed, listedToo, writes_of_build ?_⟩
  rw [build_list, readAll]
  exact made

end Success

/-- An outcome is refused at most for the faults that are allowed. -/
def RefusedOnly {β : Type} (allowed : Fault Number → Prop)
    (outcome : Except (Fault Number) β) : Prop :=
  ∀ fault, outcome = .error fault → allowed fault

namespace RefusedOnly

variable {ι β γ : Type} {allowed : Fault Number → Prop}

theorem of_ok {outcome : Except (Fault Number) β} {value : β} (ok : outcome = .ok value) :
    RefusedOnly allowed outcome := by
  intro fault refused
  rw [ok] at refused
  cases refused

theorem refusal {fault : Fault Number} (allows : allowed fault) :
    RefusedOnly allowed (throw fault : Except (Fault Number) β) := by
  intro other refused
  rwa [← Except.error.inj refused]

theorem mono {wider : Fault Number → Prop} {outcome : Except (Fault Number) β}
    (refused : RefusedOnly allowed outcome) (allows : ∀ fault, allowed fault → wider fault) :
    RefusedOnly wider outcome :=
  fun fault same => allows fault (refused fault same)

theorem bind {first : Except (Fault Number) β} {next : β → Except (Fault Number) γ}
    (head : RefusedOnly allowed first)
    (tail : ∀ value, first = .ok value → RefusedOnly allowed (next value)) :
    RefusedOnly allowed (first >>= next) := by
  cases computed : first with
  | error fault =>
    intro other refused
    rw [← Except.error.inj refused]
    exact head fault computed
  | ok value => exact tail value computed

/-- A loop is refused only for what is allowed when each of its steps is. -/
theorem foldlM {step : β → ι → Except (Fault Number) β} {items : List ι} {start : β}
    (invariant : β → Prop) (holds : invariant start)
    (each : ∀ item ∈ items, ∀ before, invariant before → RefusedOnly allowed (step before item))
    (keeps : ∀ {item before after}, invariant before → step before item = .ok after →
      invariant after) : RefusedOnly allowed (items.foldlM step start) := by
  induction items generalizing start with
  | nil => exact of_ok rfl
  | cons item rest inductionHypothesis =>
    rw [List.foldlM_cons]
    refine (each item (by simp) start holds).bind fun next stepped => ?_
    exact inductionHypothesis (keeps holds stepped)
      fun other member => each other (by simp [member])

/-- A list is refused only for what is allowed when each of its entries is. -/
theorem mapM {compute : ι → Except (Fault Number) β} {items : List ι}
    (each : ∀ item ∈ items, RefusedOnly allowed (compute item)) :
    RefusedOnly allowed (items.mapM compute) := by
  induction items with
  | nil => exact of_ok rfl
  | cons item rest inductionHypothesis =>
    rw [List.mapM_cons]
    refine (each item (by simp)).bind fun result _ => ?_
    exact (inductionHypothesis fun other member => each other (by simp [member])).bind
      fun results _ => of_ok rfl

end RefusedOnly

/-- An outcome is refused at most for what a written problem says. -/
def OnlyProblems {β : Type} (outcome : Except (Fault Number) β) : Prop :=
  ∀ fault, outcome = .error fault → ∃ cause, fault = .problem cause

namespace OnlyProblems

variable {β γ : Type}

theorem of_ok {outcome : Except (Fault Number) β} {value : β} (ok : outcome = .ok value) :
    OnlyProblems outcome :=
  RefusedOnly.of_ok ok

theorem refusal (cause : ProblemFault) :
    OnlyProblems (throw (.problem cause) : Except (Fault Number) β) :=
  RefusedOnly.refusal ⟨cause, rfl⟩

theorem bind {first : Except (Fault Number) β} {next : β → Except (Fault Number) γ}
    (head : OnlyProblems first) (tail : ∀ value, first = .ok value → OnlyProblems (next value)) :
    OnlyProblems (first >>= next) :=
  RefusedOnly.bind head tail

end OnlyProblems

/-- A number is in range when a finite binary64 number is near it. A real one is such a number. -/
structure InRange (number : Number) : Prop where
  inFormat : number.InFormat
  finite : isFinite number = .ok true

/-- A written vertex is regular when it has an id and its demand, if it has one, is in range. -/
structure RegularVertex (written : Json) : Prop where
  id : ∃ id, written.item "id" = .ok id
  demand : written.optionalItem "demand" = .ok none ∨ ∃ demand,
    written.optionalItem "demand" = .ok (some (.number demand)) ∧ InRange demand

/-- A written edge is regular when its ends are named and the bounds that it has are in range and
in order. The capacity may be missing. -/
structure RegularEdge (written : Json) : Prop where
  tail : ∃ name, written.item "tail" = .ok name
  head : ∃ name, written.item "head" = .ok name
  bounds : ∃ lower : Number, InRange lower ∧ lessEq (.int 0) lower = true ∧
    (written.optionalItem "lower" = .ok (some (.number lower)) ∨
      written.optionalItem "lower" = .ok none ∧ lower = .real .zero) ∧
    (written.optionalItem "capacity" = .ok none ∨
      written.optionalItem "capacity" = .ok (some .null) ∨
      ∃ capacity, written.optionalItem "capacity" = .ok (some (.number capacity)) ∧
        InRange capacity ∧ lessEq lower capacity = true)

/-- A text names a vertex when it is the text of an id. -/
def Names (vertices : List Json) (name : Text) : Prop :=
  ∃ vertex ∈ vertices, ∃ id, vertex.item "id" = .ok id ∧ id.display = name

/-- A written problem has a defect when two of its ids have the same text, an end of an edge or
a terminal names no vertex, a capacity is missing, or there is only one terminal. -/
inductive Defect (vertices edges : List Json) (source sink : Json) : Prop where
  | repeated {first second : Nat} {vertex other id twin : Json} (differ : first ≠ second)
      (stands : vertices[first]? = some vertex) (standsToo : vertices[second]? = some other)
      (given : vertex.item "id" = .ok id) (givenToo : other.item "id" = .ok twin)
      (same : id.display = twin.display)
  | unknownEnd {edge name : Json} {role : String} (member : edge ∈ edges)
      (either : role = "tail" ∨ role = "head") (given : edge.item role = .ok name)
      (unknown : ¬Names vertices name.display)
  | unknownTerminal {value : Json} (either : value = source ∨ value = sink)
      (present : value ≠ .null) (unknown : ¬Names vertices value.display)
  | noCapacity {edge : Json} (member : edge ∈ edges)
      (missing : edge.optionalItem "capacity" = .ok none ∨
        edge.optionalItem "capacity" = .ok (some .null))
  | oneTerminal (one : ¬(source = .null ↔ sink = .null))

section Refusal

variable {labels : List Text}

/-- The real number near a number that weighs something weighs as much, but for the rounding. -/
theorem toReal_of_weighs {number : Number} {weight : Nat} (weighs : number.Weighs weight) :
    ∃ real, (Json.number number).toReal = .ok real ∧
      real.Weighs (Binary64.roundUnits weight 1) := by
  obtain ⟨negative, near, sign⟩ := weighs.toBinary
  have format := Binary64.roundUnits_roundUnits weight
  refine ⟨.real (.finite negative (Binary64.roundUnits weight 1)), ?_,
    Or.inr ⟨negative, rfl, sign, format⟩, format.symm ▸ weighs.small⟩
  rw [Json.toReal, near]
  rfl

/-- Bounds that are in range and in order are accepted once they are rounded. -/
theorem check_of_inRange {capacity lower : Number} (capacities : InRange capacity)
    (lowers : InRange lower) (nonneg : lessEq (.int 0) lower = true)
    (ordered : lessEq lower capacity = true) :
    ∃ most least, (Json.number capacity).toReal = .ok most ∧
      (Json.number lower).toReal = .ok least ∧
      ∀ tail head, Load.check ⟨most, least, Quantity.zero, Quantity.zero⟩ tail head = .ok () := by
  obtain ⟨right, rightWeighs⟩ := Number.exists_weighs capacities.inFormat capacities.finite
    (Number.not_less_of_lessEq (Number.lessEq_trans nonneg ordered))
  obtain ⟨left, leftWeighs⟩ := Number.exists_weighs lowers.inFormat lowers.finite
    (Number.not_less_of_lessEq nonneg)
  have atMost : left ≤ right := by
    by_contra above
    have less := (rightWeighs.less_iff leftWeighs).mpr (not_le.mp above)
    exact Bool.false_ne_true ((Number.not_less_of_lessEq ordered).symm.trans less)
  obtain ⟨most, mostRead, mostWeighs⟩ := toReal_of_weighs rightWeighs
  obtain ⟨least, leastRead, leastWeighs⟩ := toReal_of_weighs leftWeighs
  refine ⟨most, least, mostRead, leastRead, fun tail head => Load.check_eq_ok.mpr
    ⟨⟨mostWeighs.isFinite, mostWeighs.isNegative⟩,
      ⟨leastWeighs.isFinite, leastWeighs.isNegative⟩, ?_⟩⟩
  rw [Bool.eq_false_iff]
  intro above
  exact absurd ((mostWeighs.less_iff leastWeighs).mp above)
    (not_lt.mpr (Binary64.roundUnits_mono atMost))

theorem readVertex_onlyProblems {written : Json} (regular : RegularVertex written)
    (before : Vertices) : OnlyProblems (readVertex before written) := by
  obtain ⟨⟨id, given⟩, demands⟩ := regular
  refine (OnlyProblems.of_ok given).bind fun _ _ => ?_
  dsimp only
  split
  · exact .refusal _
  · rcases demands with absent | ⟨demand, present, inRange⟩
    · rw [absent]
      exact .of_ok rfl
    · obtain ⟨negative, units, near⟩ := Number.toBinary_of_isFinite inRange.finite
      rw [present]
      simp only [ok_bind, Option.getD_some, Json.toReal, near]
      exact .of_ok rfl

theorem endpoint_onlyProblems (role : String) (name : Text) :
    OnlyProblems (endpoint labels role name) := by
  rw [endpoint]
  split
  · exact .of_ok rfl
  · exact .refusal _

theorem terminal_onlyProblems (role : String) (value : Json) :
    OnlyProblems (terminal labels role value) := by
  rw [terminal]
  split
  · exact .of_ok rfl
  · exact .refusal _

theorem terminals_onlyProblems (source sink : Json) :
    OnlyProblems (terminals labels source sink) := by
  unfold terminals
  split
  · exact .of_ok rfl
  · exact .refusal _
  · exact .refusal _
  · refine (terminal_onlyProblems _ _).bind fun first _ => ?_
    exact (terminal_onlyProblems _ _).bind fun last _ => .of_ok rfl

/-- A regular edge is refused only for a name or for its missing capacity. -/
theorem readEdge_onlyProblems {written : Json} (regular : RegularEdge written)
    {network : Network Number} (count : network.vertexCount = labels.length) :
    OnlyProblems (readEdge labels network written) := by
  obtain ⟨⟨tail, tailGiven⟩, ⟨head, headGiven⟩, lower, lowers, nonneg, lowerGiven, capacities⟩ :=
    regular
  obtain ⟨field, fieldGiven, field_eq⟩ : ∃ field, written.optionalItem "lower" = .ok field ∧
      field.getD zero = .number lower := by
    rcases lowerGiven with present | ⟨absent, rfl⟩
    · exact ⟨_, present, rfl⟩
    · exact ⟨_, absent, rfl⟩
  refine (OnlyProblems.of_ok tailGiven).bind fun tailName _ => ?_
  refine (OnlyProblems.of_ok headGiven).bind fun headName _ => ?_
  refine (endpoint_onlyProblems _ _).bind fun first firstFound => ?_
  refine (endpoint_onlyProblems _ _).bind fun second secondFound => ?_
  have inside : ∀ {name role vertex}, endpoint labels role name = .ok vertex →
      vertex < network.vertexCount := by
    intro name role vertex found
    obtain ⟨inside, -⟩ := List.idxOf?_eq_some_iff.mp (endpoint_eq_ok found)
    rwa [count]
  rcases capacities with missing | missing | ⟨capacity, present, inRange, ordered⟩
  · simp only [capacityOf, missing]
    exact .refusal _
  · simp only [capacityOf, missing]
    exact .refusal _
  · obtain ⟨most, least, mostRead, leastRead, checked⟩ :=
      check_of_inRange inRange lowers nonneg ordered
    have found : capacityOf written tailName.display headName.display = .ok (.number capacity) := by
      simp only [capacityOf, present]
      rfl
    have added : network.addEdge first second most least =
        .ok (network.attach first second ⟨most, least, Quantity.zero, Quantity.zero⟩) := by
      simp only [addEdge, checkVertex_natCast _ (inside firstFound),
        checkVertex_natCast _ (inside secondFound), ok_bind, checked]
      rfl
    simp only [found, fieldGiven, field_eq, mostRead, leastRead, ok_bind]
    exact .of_ok added

/-- A problem is refused only for what is allowed when its vertices and its edges are,
and what it says is allowed. -/
theorem build_refusedOnly {allowed : Fault Number → Prop}
    (problems : ∀ cause, allowed (.problem cause)) {vertices edges : List Json} (source sink : Json)
    (vertex : ∀ written ∈ vertices, ∀ before, RefusedOnly allowed (readVertex before written))
    (edge : ∀ written ∈ edges, ∀ (labels : List Text) (network : Network Number),
      network.vertexCount = labels.length →
      RefusedOnly allowed (readEdge labels network written)) :
    RefusedOnly allowed (build (.list vertices) (.list edges) source sink) := by
  rw [build_list]
  refine (RefusedOnly.foldlM (fun _ => True) trivial
    (fun written member before _ => vertex written member before)
    fun _ _ => trivial).bind fun read _ => ?_
  refine (RefusedOnly.foldlM (fun network => network.vertexCount = read.labels.length)
    (vertexCount_empty _) (fun written member before count => edge written member _ before count)
    ?_).bind fun network _ => ?_
  · intro edge before after count step
    obtain ⟨made, -, -, tail, head, added⟩ := readEdge_eq_ok step
    obtain ⟨first, second, -, -, -, -, -, rfl⟩ := addEdge_eq_ok added
    rw [vertexCount_attach, count]
  · have ended : RefusedOnly allowed (terminals read.labels source sink) := by
      intro fault refused
      obtain ⟨cause, rfl⟩ := terminals_onlyProblems source sink fault refused
      exact problems cause
    exact ended.bind fun ends _ => .of_ok rfl

/-- A problem of regular vertices and edges is refused only for what it says. -/
theorem build_onlyProblems {vertices edges : List Json} (source sink : Json)
    (regular : ∀ vertex ∈ vertices, RegularVertex vertex)
    (regularToo : ∀ edge ∈ edges, RegularEdge edge) :
    OnlyProblems (build (.list vertices) (.list edges) source sink) :=
  build_refusedOnly (fun cause => ⟨cause, rfl⟩) source sink
    (fun vertex member before => readVertex_onlyProblems (regular vertex member) before)
    fun edge member _ _ count => readEdge_onlyProblems (regularToo edge member) count

end Refusal

section Faithful

variable {vertices edges : List Json} {source sink : Json} {problem : Problem Number}

/-- The labels of a problem name its vertices. -/
theorem Writes.names (writes : Writes vertices edges source sink problem) {label : Text}
    (member : label ∈ problem.labels) : Names vertices label := by
  obtain ⟨position, inside, rfl⟩ := List.getElem_of_mem member
  have early : position < vertices.length := writes.labels.length_eq ▸ inside
  obtain ⟨id, given, same⟩ := writes.labels.get early inside
  exact ⟨_, List.getElem_mem early, id, given, same⟩

/-- The label of a vertex is the text of its id. -/
theorem Writes.getElem?_labels (writes : Writes vertices edges source sink problem)
    {position : Nat} {vertex id : Json} (stands : vertices[position]? = some vertex)
    (given : vertex.item "id" = .ok id) : problem.labels[position]? = some id.display := by
  obtain ⟨early, rfl⟩ := List.getElem?_eq_some_iff.mp stands
  have inside : position < problem.labels.length := writes.labels.length_eq ▸ early
  obtain ⟨other, givenToo, same⟩ := writes.labels.get early inside
  obtain rfl := Except.ok.inj (given.symm.trans givenToo)
  rw [List.getElem?_eq_getElem inside]
  exact congrArg some same.symm

/-- A problem that is as it is written has no defect. -/
theorem Writes.not_defect (writes : Writes vertices edges source sink problem) :
    ¬Defect vertices edges source sink := by
  have known : ∀ {edge}, edge ∈ edges → ∃ made, WritesEdge problem.labels edge made := by
    intro edge member
    obtain ⟨position, inside, rfl⟩ := List.getElem_of_mem member
    exact ⟨_, writes.edges.get inside (writes.edges.length_eq ▸ inside)⟩
  intro defect
  cases defect with
  | repeated differ stands standsToo given givenToo same =>
    have first := writes.getElem?_labels stands given
    have second := writes.getElem?_labels standsToo givenToo
    rw [← same] at second
    exact differ ((List.getElem?_inj (List.getElem?_eq_some_iff.mp first).1 writes.distinct).mp
      (first.trans second.symm))
  | unknownEnd member either given unknown =>
    obtain ⟨made, as⟩ := known member
    rcases either with rfl | rfl
    · obtain ⟨name, givenToo, named⟩ := as.tail
      obtain rfl := Except.ok.inj (given.symm.trans givenToo)
      exact unknown (writes.names (List.mem_of_getElem? named))
    · obtain ⟨name, givenToo, named⟩ := as.head
      obtain rfl := Except.ok.inj (given.symm.trans givenToo)
      exact unknown (writes.names (List.mem_of_getElem? named))
  | unknownTerminal either present unknown =>
    rcases writes.terminals with ⟨noSource, noSink, -⟩ | ⟨first, last, -, -, -, -, named, namedToo⟩
    · rcases either with rfl | rfl
      · exact present noSource
      · exact present noSink
    · rcases either with rfl | rfl
      · exact unknown (writes.names (List.mem_of_getElem? named))
      · exact unknown (writes.names (List.mem_of_getElem? namedToo))
  | noCapacity member missing =>
    obtain ⟨made, as⟩ := known member
    obtain ⟨capacity, given, read⟩ := as.capacity
    rcases missing with missing | missing
    · cases missing.symm.trans given
    · obtain rfl := Option.some.inj (Except.ok.inj (missing.symm.trans given))
      cases read
  | oneTerminal one =>
    rcases writes.terminals with ⟨noSource, noSink, -⟩ | ⟨-, -, someSource, someSink, -⟩
    · exact one (iff_of_true noSource noSink)
    · exact one (iff_of_false someSource someSink)

/-- A problem that is built is as its vertices, its edges and its terminals are written.
Regular vertices and edges are refused as a problem whenever they have a defect. -/
theorem build_faithful (vertices edges : List Json) (source sink : Json) :
    (∀ problem, build (.list vertices) (.list edges) source sink = .ok problem →
      Writes vertices edges source sink problem) ∧
    ((∀ vertex ∈ vertices, RegularVertex vertex) → (∀ edge ∈ edges, RegularEdge edge) →
      Defect vertices edges source sink →
      ∃ cause, build (.list vertices) (.list edges) source sink = .error (.problem cause)) := by
  refine ⟨fun problem => writes_of_build, fun regular regularToo defect => ?_⟩
  cases built : build (.list vertices) (.list edges) source sink with
  | ok problem => exact absurd defect (writes_of_build built).not_defect
  | error fault =>
    obtain ⟨cause, rfl⟩ := build_onlyProblems source sink regular regularToo fault built
    exact ⟨cause, rfl⟩

/-- A vertex that is written with its id alone. -/
def plainVertex (id : Json) : Json := .object [("id", id)]

/-- An edge that is written with its ends and its capacity. -/
def plainEdge (tail head : Json) (capacity : Int) : Json :=
  .object [("tail", tail), ("head", head), ("capacity", .ofInt capacity)]

/-- The number one and the text of it name the same vertex, so only one of them may be an id. -/
theorem build_faithful_mixed :
    (∃ problem, build (.list [plainVertex (.ofInt 1), plainVertex (.text "b")])
        (.list [plainEdge (.text "1") (.text "b") 2]) .null .null = .ok problem ∧
      problem.labels = [Text.ofString "1", Text.ofString "b"] ∧
      ∃ edge, problem.network.edges.toList = [edge] ∧
        WritesEdge problem.labels (plainEdge (.text "1") (.text "b") 2) edge) ∧
    ∃ cause, build (.list [plainVertex (.ofInt 1), plainVertex (.text "1")])
      (.list [plainEdge (.text "1") (.text "1") 2]) .null .null = .error (.problem cause) := by
  refine ⟨?_, ?_⟩
  · have known : (build (.list [plainVertex (.ofInt 1), plainVertex (.text "b")])
        (.list [plainEdge (.text "1") (.text "b") 2]) .null .null).toOption.map
          (fun problem => problem.labels) = some [Text.ofString "1", Text.ofString "b"] := by
      decide +kernel
    cases built : build (.list [plainVertex (.ofInt 1), plainVertex (.text "b")])
        (.list [plainEdge (.text "1") (.text "b") 2]) .null .null with
    | error fault =>
      rw [built] at known
      cases known
    | ok problem =>
      rw [built] at known
      have writes := (build_faithful _ _ _ _).1 problem built
      obtain ⟨edge, rest, as, none, edges⟩ := List.forall₂_cons_left_iff.mp writes.edges
      cases none
      exact ⟨problem, rfl, Option.some.inj known, edge, edges, as⟩
  · refine (build_faithful _ _ _ _).2 ?_ ?_ ?_
    · intro vertex member
      rcases List.mem_pair.mp member with rfl | rfl
      · exact ⟨⟨_, rfl⟩, Or.inl rfl⟩
      · exact ⟨⟨_, rfl⟩, Or.inl rfl⟩
    · intro edge member
      obtain rfl := List.mem_singleton.mp member
      have nothing : InRange (.real .zero) := ⟨Binary64.inFormat_zero false, rfl⟩
      have two : InRange (.int 2) := ⟨trivial, by decide +kernel⟩
      exact ⟨⟨_, rfl⟩, ⟨_, rfl⟩, .real .zero, nothing, by decide +kernel, Or.inr ⟨rfl, rfl⟩,
        Or.inr (Or.inr ⟨.int 2, rfl, two, by decide +kernel⟩)⟩
    · have same : (Json.ofInt 1).display = (Json.text "1").display := by decide +kernel
      exact .repeated (zero_ne_one : (0 : Nat) ≠ 1) rfl rfl rfl rfl same

end Faithful
end Problem
end NetworkFlow
