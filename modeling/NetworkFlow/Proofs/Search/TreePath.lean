import NetworkFlow.Proofs.Search.BreadthFirst

namespace NetworkFlow

variable {α : Type}

/-- A rule returns when the other end of a crossed edge is the origin of the arc. -/
def Crossing.Returns (rule : Crossing α) (network : Network α) : Prop :=
  ∀ arc edge, rule.Crosses network arc → network.edges[arc.edge]? = some edge →
    arc.origin ≠ arc.target → edge.otherEnd arc.target = arc.origin

/-- A path is shortest when each arc is crossed and leads one step away from the source. -/
structure ShortestPath (crosses : Arc → Prop) (bound source target : Nat) (arcs : List Arc) :
    Prop where
  path : ArcPath source arcs target
  crossed : ∀ arc ∈ arcs, crosses arc
  rises : ∀ arc ∈ arcs, distance (Leads crosses) source bound arc.target =
    distance (Leads crosses) source bound arc.origin + 1
  near : ∀ arc ∈ arcs, distance (Leads crosses) source bound arc.target < bound

namespace ShortestPath

variable {crosses : Arc → Prop} {bound source target : Nat} {first : Arc} {rest : List Arc}

/-- The path without its last arc is shortest too. -/
theorem tail (shortest : ShortestPath crosses bound source target (first :: rest)) :
    ShortestPath crosses bound source first.origin rest := by
  refine ⟨?_, ?_, ?_, ?_⟩
  · cases shortest.path with
    | extend arc path => exact path
  · exact fun arc member => shortest.crossed arc (List.mem_cons_of_mem _ member)
  · exact fun arc member => shortest.rises arc (List.mem_cons_of_mem _ member)
  · exact fun arc member => shortest.near arc (List.mem_cons_of_mem _ member)

/-- No arc of a shortest path leads further away than its end. -/
theorem distance_le {arcs : List Arc} (shortest : ShortestPath crosses bound source target arcs)
    {arc : Arc} (member : arc ∈ arcs) : distance (Leads crosses) source bound arc.target ≤
      distance (Leads crosses) source bound target := by
  induction arcs generalizing target with
  | nil => exact absurd member List.not_mem_nil
  | cons first rest inductionHypothesis =>
    have last : first.target = target := by
      cases shortest.path with
      | extend arc path => rfl
    rcases List.mem_cons.mp member with rfl | later
    · rw [last]
    · have low := inductionHypothesis shortest.tail later
      have rise := shortest.rises first (by simp)
      rw [last] at rise
      omega

/-- Earlier arcs of a shortest path end nearer to the source. -/
theorem distance_lt (shortest : ShortestPath crosses bound source target (first :: rest))
    {arc : Arc} (member : arc ∈ rest) : distance (Leads crosses) source bound arc.target <
      distance (Leads crosses) source bound first.target := by
  have low := shortest.tail.distance_le member
  have rise := shortest.rises first (by simp)
  omega

/-- A shortest path has as many arcs as its end is away from the source. -/
theorem length_eq {arcs : List Arc} (shortest : ShortestPath crosses bound source target arcs) :
    arcs.length = distance (Leads crosses) source bound target := by
  induction arcs generalizing target with
  | nil =>
    cases shortest.path with
    | start => exact (Nat.le_zero.mp (distance_le_length .start)).symm
  | cons first rest inductionHypothesis =>
    have last : first.target = target := by
      cases shortest.path with
      | extend arc path => rfl
    have rise := shortest.rises first (by simp)
    rw [List.length_cons, inductionHypothesis shortest.tail, ← last, rise]

/-- No walk to the end of a shortest path is shorter. -/
theorem length_le {arcs : List Arc} (shortest : ShortestPath crosses bound source target arcs)
    {length : Nat} (walk : Walk (Leads crosses) source length target) : arcs.length ≤ length := by
  rw [shortest.length_eq]
  exact distance_le_length walk

/-- The end of a shortest path is nearer than the bound. -/
theorem target_near {arcs : List Arc} (shortest : ShortestPath crosses bound source target arcs)
    (positive : 0 < bound) : distance (Leads crosses) source bound target < bound := by
  cases arcs with
  | nil => rwa [← shortest.length_eq]
  | cons first rest =>
    have near := shortest.near first (by simp)
    cases shortest.path with
    | extend arc path => exact near

end ShortestPath

namespace SearchTree

variable {rule : Crossing α} {network : Network α} {source : Nat} {level : Nat → Nat}
  {tree : SearchTree}

theorem Leveled.level_lt (leveled : tree.Leveled rule network source level) {vertex : Nat}
    (marked : tree.isMarked vertex) : level vertex < network.vertexCount :=
  Nat.lt_of_le_of_lt (Nat.le_add_right _ _) (leveled.bounded vertex marked)

/-- The source is the only vertex on level zero. -/
theorem Leveled.eq_source (leveled : tree.Leveled rule network source level) {vertex : Nat}
    (marked : tree.isMarked vertex) (zero : level vertex = 0) : vertex = source := by
  by_contra differ
  obtain ⟨arc, -, -, -, -, higher⟩ := leveled.parent vertex marked differ
  omega

/-- A reached vertex has a walk as long as its level. -/
theorem Leveled.walk (leveled : tree.Leveled rule network source level) {vertex : Nat}
    (marked : tree.isMarked vertex) :
    Walk (Leads (rule.Crosses network)) source (level vertex) vertex := by
  induction height : level vertex generalizing vertex with
  | zero =>
    rw [leveled.eq_source marked height]
    exact .start
  | succ height inductionHypothesis =>
    have differ : vertex ≠ source := by
      rintro rfl
      rw [leveled.rootLevel] at height
      omega
    obtain ⟨arc, -, rfl, crosses, origin, higher⟩ := leveled.parent vertex marked differ
    exact (inductionHypothesis origin (by omega)).extend (leads_of_crosses crosses)

/-- A walk ends at a reached vertex whose level is at most the length of the walk. -/
theorem Spans.of_walk (spans : tree.Spans rule network source level) {length vertex : Nat}
    (walk : Walk (Leads (rule.Crosses network)) source length vertex) :
    tree.isMarked vertex ∧ level vertex ≤ length := by
  induction walk with
  | start => exact ⟨spans.rootMarked, Nat.le_of_eq spans.rootLevel⟩
  | extend walk leads inductionHypothesis =>
    obtain ⟨marked, low⟩ := spans.closed _ inductionHypothesis.1 _ leads
    exact ⟨marked, by omega⟩

/-- A tree is lowest when no walk to a reached vertex is shorter than its level.
Some vertices that the rule leads to may not be reached yet. -/
structure Lowest (rule : Crossing α) (network : Network α) (source : Nat) (level : Nat → Nat)
    (tree : SearchTree) : Prop extends tree.Leveled rule network source level where
  nearest : ∀ vertex, tree.isMarked vertex → ∀ length,
    Walk (Leads (rule.Crosses network)) source length vertex → level vertex ≤ length

theorem Spans.lowest (spans : tree.Spans rule network source level) :
    tree.Lowest rule network source level :=
  ⟨spans.toLeveled, fun _ _ _ walk => (spans.of_walk walk).2⟩

/-- The level of a reached vertex is its distance. -/
theorem Lowest.distance_eq (lowest : tree.Lowest rule network source level) {vertex : Nat}
    (marked : tree.isMarked vertex) :
    distance (Leads (rule.Crosses network)) source network.vertexCount vertex = level vertex := by
  apply Nat.le_antisymm
  · exact distance_le_length (lowest.walk marked)
  · exact le_distance vertex (Nat.le_of_lt (lowest.level_lt marked)) (lowest.nearest vertex marked)

theorem Spans.distance_eq (spans : tree.Spans rule network source level) {vertex : Nat}
    (marked : tree.isMarked vertex) :
    distance (Leads (rule.Crosses network)) source network.vertexCount vertex = level vertex :=
  spans.lowest.distance_eq marked

/-- A vertex is reached exactly when its distance is below the number of vertices. -/
theorem Spans.isMarked_iff (spans : tree.Spans rule network source level) (vertex : Nat) :
    tree.isMarked vertex ↔ distance (Leads (rule.Crosses network)) source network.vertexCount
      vertex < network.vertexCount := by
  constructor
  · intro marked
    rw [spans.distance_eq marked]
    exact spans.level_lt marked
  · intro near
    exact (spans.of_walk (walk_of_distance_lt near)).1

/-- A reached vertex other than the source has an edge that leads back to its parent. -/
theorem Leveled.edgeInto (leveled : tree.Leveled rule network source level)
    (returns : rule.Returns network) {vertex : Nat} (marked : tree.isMarked vertex)
    (differ : vertex ≠ source) :
    ∃ arc edge, tree.edgeInto network vertex = some (arc.edge, edge) ∧ arc.target = vertex ∧
      edge.otherEnd vertex = arc.origin ∧ rule.Crosses network arc ∧
      tree.isMarked arc.origin ∧ level vertex = level arc.origin + 1 := by
  obtain ⟨arc, entry, rfl, crosses, origin, higher⟩ := leveled.parent vertex marked differ
  obtain ⟨edge, stands, -⟩ := crosses.2
  refine ⟨arc, edge, ?_, rfl, ?_, crosses, origin, higher⟩
  · simp only [SearchTree.entry] at entry
    simp [SearchTree.edgeInto, entry, stands]
  · refine returns arc edge crosses stands ?_
    intro same
    rw [same] at higher
    omega

/-- The walk back from a vertex that no edge reached takes no arc. -/
theorem arcsTo_of_bare {vertex : Nat} (bare : tree.entry vertex = none) (network : Network α)
    (root : Option Int) : tree.arcsTo network root vertex = .ok [] := by
  have unreached : tree.edgeTo.getD vertex none = none := bare
  simp only [SearchTree.arcsTo, SearchTree.walk, SearchTree.edgeInto, unreached]
  split <;> rfl

/-- The walk back from a reached vertex comes to the source, one level at a time. -/
theorem Leveled.walk_eq (leveled : tree.Leveled rule network source level)
    (returns : rule.Returns network) :
    ∀ (fuel : Nat) (vertex : Nat) (found : List Arc), tree.isMarked vertex →
      level vertex < fuel →
      ∃ arcs, tree.walk network (some (source : Int)) fuel vertex found =
          .ok (found.reverse ++ arcs) ∧
        ArcPath source arcs vertex ∧ arcs.length = level vertex ∧
        ∀ arc ∈ arcs, rule.Crosses network arc ∧ tree.isMarked arc.origin ∧
          tree.isMarked arc.target ∧ level arc.target = level arc.origin + 1 := by
  intro fuel
  induction fuel with
  | zero => exact fun vertex found marked enough => absurd enough (Nat.not_lt_zero _)
  | succ fuel inductionHypothesis =>
    intro vertex found marked enough
    rw [SearchTree.walk]
    by_cases same : vertex = source
    · refine ⟨[], ?_, same ▸ .start, ?_, by simp⟩
      · simp [same]
      · rw [same, leveled.rootLevel, List.length_nil]
    · obtain ⟨arc, edge, into, rfl, other, crosses, origin, higher⟩ :=
        leveled.edgeInto returns marked same
      have notYet : (some (source : Int)) ≠ some ((arc.target : Nat) : Int) := by
        simpa using Ne.symm same
      obtain ⟨arcs, walked, path, length, facts⟩ :=
        inductionHypothesis arc.origin (arc :: found) origin (by omega)
      refine ⟨arc :: arcs, ?_, .extend arc path, ?_, ?_⟩
      · rw [if_neg notYet]
        simp only [into, other]
        rw [walked]
        simp
      · rw [List.length_cons, length, higher]
      · intro each member
        rcases List.mem_cons.mp member with rfl | earlier
        · exact ⟨crosses, origin, marked, higher⟩
        · exact facts each earlier

/-- The tree path to a reached vertex of a lowest tree is a shortest path. -/
theorem Lowest.arcsTo (lowest : tree.Lowest rule network source level)
    (returns : rule.Returns network) {vertex : Nat} (marked : tree.isMarked vertex) :
    ∃ arcs, tree.arcsTo network (some (source : Int)) vertex = .ok arcs ∧
      ShortestPath (rule.Crosses network) network.vertexCount source vertex arcs := by
  have enough : level vertex < tree.edgeTo.size + 1 := by
    have low := lowest.level_lt marked
    rw [lowest.edgeToSize]
    omega
  obtain ⟨arcs, walked, path, -, facts⟩ :=
    lowest.walk_eq returns (tree.edgeTo.size + 1) vertex [] marked enough
  refine ⟨arcs, by simpa [SearchTree.arcsTo] using walked, path, ?_, ?_, ?_⟩
  · exact fun arc member => (facts arc member).1
  · intro arc member
    obtain ⟨-, origin, target, higher⟩ := facts arc member
    rw [lowest.distance_eq origin, lowest.distance_eq target, higher]
  · intro arc member
    have target := (facts arc member).2.2.1
    rw [lowest.distance_eq target]
    exact lowest.level_lt target

/-- The tree path to a reached vertex is a shortest path. -/
theorem Spans.arcsTo (spans : tree.Spans rule network source level)
    (returns : rule.Returns network) {vertex : Nat} (marked : tree.isMarked vertex) :
    ∃ arcs, tree.arcsTo network (some (source : Int)) vertex = .ok arcs ∧
      ShortestPath (rule.Crosses network) network.vertexCount source vertex arcs :=
  spans.lowest.arcsTo returns marked

end SearchTree

namespace Search

variable {rule : Crossing α} {network : Network α} {source : Nat} {level : Nat → Nat}
  {search : Search α}

/-- A walk that is not explored to its end has a queued vertex that is nearer. -/
theorem Exploring.of_walk (exploring : Exploring rule network source level search)
    {length vertex : Nat} (walk : Walk (Leads (rule.Crosses network)) source length vertex) :
    search.tree.isMarked vertex ∧ level vertex ≤ length ∨
      ∃ queued ∈ search.queue, level queued < length := by
  induction walk with
  | start => exact Or.inl ⟨exploring.tree.rootMarked, Nat.le_of_eq exploring.tree.rootLevel⟩
  | @extend length origin target walk leads inductionHypothesis =>
    rcases inductionHypothesis with ⟨marked, low⟩ | ⟨queued, member, lower⟩
    · by_cases waiting : origin ∈ search.queue
      · exact Or.inr ⟨origin, waiting, by omega⟩
      · obtain ⟨reached, next⟩ := exploring.closed origin marked waiting target leads
        exact Or.inl ⟨reached, by omega⟩
    · exact Or.inr ⟨queued, member, by omega⟩

/-- The tree is lowest between any two scans, for the queue spans at most two levels. -/
theorem Exploring.lowest (exploring : Exploring rule network source level search) :
    search.tree.Lowest rule network source level := by
  refine ⟨exploring.tree, fun vertex marked length walk => ?_⟩
  rcases exploring.of_walk walk with ⟨-, low⟩ | ⟨queued, member, lower⟩
  · exact low
  · obtain ⟨first, rest, queue⟩ := List.exists_cons_of_ne_nil (List.ne_nil_of_mem member)
    have most := exploring.below first (by rw [queue]; rfl) vertex marked
    have least : level first ≤ level queued := by
      have ordered := exploring.ordered
      rw [queue] at ordered member
      rcases List.mem_cons.mp member with rfl | later
      · exact le_rfl
      · exact (List.pairwise_cons.mp ordered).1 queued later
    omega

/-- A search for a goal finds the goal on the lowest level exactly when the rule leads there. -/
theorem run_goal (decides : rule.Decides network) (inRange : source < network.vertexCount)
    (goal : Nat) :
    (∃ level, (run network rule (some goal) source).tree.Lowest rule network source level) ∧
      ((run network rule (some goal) source).tree.isMarked goal ↔
        ∃ length, Walk (Leads (rule.Crosses network)) source length goal) := by
  obtain ⟨level, exploring, ended⟩ := run_exploring decides (some goal) inRange
  refine ⟨⟨level, exploring.lowest⟩, fun marked => ⟨_, exploring.tree.walk marked⟩, ?_⟩
  rintro ⟨length, walk⟩
  rcases ended with empty | ⟨last, same, marked⟩
  · rcases exploring.of_walk walk with ⟨marked, -⟩ | ⟨queued, member, -⟩
    · exact marked
    · rw [empty] at member
      cases member
  · rwa [← Option.some.inj same] at marked

end Search
end NetworkFlow
