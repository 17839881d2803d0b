import NetworkFlow.Proofs.Search.Walk

namespace NetworkFlow

variable {α : Type}

namespace SearchTree

/-- The number of vertices that are not reached. -/
def blanks (tree : SearchTree) : Nat :=
  tree.marked.count false

/-- The edge that reached a vertex. -/
def entry (tree : SearchTree) (vertex : Nat) : Option Nat :=
  tree.edgeTo.getD vertex none

theorem isMarked_eq_getElem? (tree : SearchTree) (vertex : Nat) :
    tree.isMarked vertex = (tree.marked[vertex]?).getD false := by
  simp [isMarked]

/-- A vertex without a mark is in range and not reached. -/
theorem marked_eq_false_iff (tree : SearchTree) (vertex : Nat) :
    tree.marked[vertex]? = some false ↔
      vertex < tree.marked.size ∧ tree.isMarked vertex = false := by
  rw [isMarked_eq_getElem?]
  by_cases inRange : vertex < tree.marked.size
  · simp [inRange]
  · simp [inRange]

theorem lt_size_of_isMarked {tree : SearchTree} {vertex : Nat} (marked : tree.isMarked vertex) :
    vertex < tree.marked.size := by
  by_contra outside
  simp [isMarked, outside] at marked

theorem isMarked_blank (vertexCount vertex : Nat) :
    (blank vertexCount).isMarked vertex = false := by
  by_cases inRange : vertex < vertexCount <;> simp [blank, isMarked, inRange]

theorem isMarked_markRoot (tree : SearchTree) (root : Nat) (inRange : root < tree.marked.size)
    (vertex : Nat) :
    (tree.markRoot root).isMarked vertex ↔ vertex = root ∨ tree.isMarked vertex := by
  simp only [isMarked_eq_getElem?, markRoot, Array.getElem?_setIfInBounds]
  grind

theorem isMarked_reach (tree : SearchTree) {next : Nat} (inRange : next < tree.marked.size)
    (edge vertex : Nat) :
    (tree.reach next edge).isMarked vertex ↔ vertex = next ∨ tree.isMarked vertex := by
  simp only [isMarked_eq_getElem?, reach, Array.getElem?_setIfInBounds]
  grind

theorem entry_reach (tree : SearchTree) {next : Nat} (inRange : next < tree.edgeTo.size)
    (edge vertex : Nat) : (tree.reach next edge).entry vertex =
      if vertex = next then some edge else tree.entry vertex := by
  simp only [entry, reach, Array.getD_eq_getD_getElem?, Array.getElem?_setIfInBounds]
  grind

theorem entry_blank (vertexCount vertex : Nat) : (blank vertexCount).entry vertex = none := by
  by_cases inRange : vertex < vertexCount <;> simp [blank, entry, inRange]

/-- Reaching a vertex leaves one blank less. -/
theorem blanks_reach (tree : SearchTree) {next : Nat}
    (fresh : tree.marked[next]? = some false) (edge : Nat) :
    (tree.reach next edge).blanks + 1 = tree.blanks := by
  obtain ⟨inRange, value⟩ := Array.getElem?_eq_some_iff.mp fresh
  have positive : 0 < tree.marked.count false :=
    Array.count_pos_iff.mpr (value ▸ Array.getElem_mem inRange)
  simp only [blanks, reach, Array.setIfInBounds, inRange, dite_true, Array.count_set, value]
  simp
  omega

end SearchTree

/-- The tree of a search reaches each vertex from a vertex that is one level lower. -/
structure SearchTree.Leveled (rule : Crossing α) (network : Network α) (source : Nat)
    (level : Nat → Nat) (tree : SearchTree) : Prop where
  markedSize : tree.marked.size = network.vertexCount
  edgeToSize : tree.edgeTo.size = network.vertexCount
  rootMarked : tree.isMarked source
  rootLevel : level source = 0
  parent : ∀ vertex, tree.isMarked vertex → vertex ≠ source →
    ∃ arc : Arc, tree.entry vertex = some arc.edge ∧ arc.target = vertex ∧
      rule.Crosses network arc ∧ tree.isMarked arc.origin ∧ level vertex = level arc.origin + 1
  bare : ∀ vertex, tree.isMarked vertex = false → tree.entry vertex = none
  rootBare : tree.entry source = none
  bounded : ∀ vertex, tree.isMarked vertex → level vertex + tree.blanks < network.vertexCount

/-- A finished tree also reaches everything that the rule leads to, on the lowest level. -/
structure SearchTree.Spans (rule : Crossing α) (network : Network α) (source : Nat)
    (level : Nat → Nat) (tree : SearchTree) : Prop
    extends tree.Leveled rule network source level where
  closed : ∀ origin, tree.isMarked origin → ∀ target, Leads (rule.Crosses network) origin target →
    tree.isMarked target ∧ level target ≤ level origin + 1

/-- A new vertex is one level above the vertex that it was reached from. -/
theorem SearchTree.Leveled.reach {rule : Crossing α} {network : Network α} {source : Nat}
    {level : Nat → Nat} {tree : SearchTree} (leveled : tree.Leveled rule network source level)
    {current position next : Nat} (marked : tree.isMarked current)
    (crosses : rule.Crosses network ⟨position, current, next⟩)
    (fresh : tree.marked[next]? = some false) :
    (tree.reach next position).Leveled rule network source
      (Function.update level next (level current + 1)) := by
  obtain ⟨inRange, unmarked⟩ := (tree.marked_eq_false_iff next).mp fresh
  have mark := tree.isMarked_reach inRange position
  have enter := tree.entry_reach (leveled.edgeToSize ▸ leveled.markedSize ▸ inRange) position
  have fewer := tree.blanks_reach fresh position
  have different {vertex : Nat} (old : tree.isMarked vertex) : vertex ≠ next := by
    rintro rfl
    exact Bool.false_ne_true (unmarked.symm.trans old)
  have keep {vertex : Nat} (old : tree.isMarked vertex) :
      Function.update level next (level current + 1) vertex = level vertex :=
    Function.update_of_ne (different old) _ _
  constructor
  case markedSize => simpa [SearchTree.reach] using leveled.markedSize
  case edgeToSize => simpa [SearchTree.reach] using leveled.edgeToSize
  case rootMarked => exact (mark source).mpr (Or.inr leveled.rootMarked)
  case rootLevel => rw [keep leveled.rootMarked, leveled.rootLevel]
  case parent =>
    intro vertex reached notSource
    rcases (mark vertex).mp reached with rfl | old
    · refine ⟨⟨position, current, vertex⟩, by simp [enter], rfl, crosses, ?_, ?_⟩
      · exact (mark current).mpr (Or.inr marked)
      · rw [Function.update_self, keep marked]
    · obtain ⟨arc, entry, target, crossed, origin, higher⟩ := leveled.parent vertex old notSource
      refine ⟨arc, ?_, target, crossed, (mark arc.origin).mpr (Or.inr origin), ?_⟩
      · rw [enter, if_neg (different old), entry]
      · rw [keep old, keep origin, higher]
  case bare =>
    intro vertex unreached
    have outside := mt (mark vertex).mpr (by simp [unreached])
    rw [not_or] at outside
    rw [enter, if_neg outside.1]
    exact leveled.bare vertex (by simpa using outside.2)
  case rootBare => rw [enter, if_neg (different leveled.rootMarked), leveled.rootBare]
  case bounded =>
    intro vertex reached
    rcases (mark vertex).mp reached with rfl | old
    · have bound := leveled.bounded current marked
      rw [Function.update_self]
      omega
    · have bound := leveled.bounded vertex old
      rw [keep old]
      omega

namespace Search

/-- The invariant between two scans. Every vertex that left the queue is closed under the rule,
and the queue is ordered by level and spans at most two levels. -/
structure Exploring (rule : Crossing α) (network : Network α) (source : Nat)
    (level : Nat → Nat) (search : Search α) : Prop where
  noFault : search.fault = none
  tree : search.tree.Leveled rule network source level
  queued : ∀ vertex ∈ search.queue, search.tree.isMarked vertex
  ordered : search.queue.Pairwise fun first second => level first ≤ level second
  below : ∀ first ∈ search.queue.head?, ∀ vertex, search.tree.isMarked vertex →
    level vertex ≤ level first + 1
  closed : ∀ origin, search.tree.isMarked origin → origin ∉ search.queue →
    ∀ target, Leads (rule.Crosses network) origin target →
      search.tree.isMarked target ∧ level target ≤ level origin + 1

/-- The invariant within the scan of a vertex whose edges at some positions are still to do. -/
structure Scanning (rule : Crossing α) (network : Network α) (source : Nat)
    (level : Nat → Nat) (current : Nat) (todo : List Nat) (search : Search α) : Prop where
  noFault : search.fault = none
  tree : search.tree.Leveled rule network source level
  marked : search.tree.isMarked current
  queued : ∀ vertex ∈ search.queue, search.tree.isMarked vertex
  ordered : search.queue.Pairwise fun first second => level first ≤ level second
  above : ∀ vertex ∈ search.queue, level current ≤ level vertex
  below : ∀ vertex, search.tree.isMarked vertex → level vertex ≤ level current + 1
  closed : ∀ origin, search.tree.isMarked origin → origin ∉ search.queue → origin ≠ current →
    ∀ target, Leads (rule.Crosses network) origin target →
      search.tree.isMarked target ∧ level target ≤ level origin + 1
  crossed : ∀ arc, rule.Crosses network arc → arc.origin = current → arc.edge ∉ todo →
    search.tree.isMarked arc.target

variable {rule : Crossing α} {network : Network α} {source : Nat} {level : Nat → Nat}

/-- Taking the first vertex from the queue starts its scan. -/
theorem Exploring.pop {search : Search α} {current : Nat} {rest : List Nat}
    (exploring : Exploring rule network source level search)
    (queue : search.queue = current :: rest) :
    Scanning rule network source level current (network.incident current)
      { search with queue := rest } := by
  have ordered := exploring.ordered
  rw [queue, List.pairwise_cons] at ordered
  refine ⟨exploring.noFault, exploring.tree, ?_, ?_, ordered.2, ordered.1, ?_, ?_, ?_⟩
  · exact exploring.queued current (by simp [queue])
  · intro vertex member
    exact exploring.queued vertex (by simp [queue, member])
  · exact exploring.below current (by simp [queue])
  · intro origin marked absent differ target leads
    refine exploring.closed origin marked ?_ target leads
    rw [queue, List.mem_cons, not_or]
    exact ⟨differ, absent⟩
  · intro arc crosses origin absent
    exact absurd (origin ▸ crosses.1) absent

/-- A scan with nothing left to do gives the invariant between two scans. -/
theorem Scanning.finish {search : Search α} {current : Nat}
    (scanning : Scanning rule network source level current [] search) :
    Exploring rule network source level search := by
  refine ⟨scanning.noFault, scanning.tree, scanning.queued, scanning.ordered, ?_, ?_⟩
  · intro first head vertex marked
    have low := scanning.below vertex marked
    have high := scanning.above first (List.mem_of_mem_head? head)
    omega
  · intro origin marked absent target leads
    by_cases same : origin = current
    · obtain ⟨position, crosses⟩ := leads
      have reached := scanning.crossed _ crosses same (List.not_mem_nil)
      exact ⟨reached, same ▸ scanning.below target reached⟩
    · exact scanning.closed origin marked absent same target leads

/-- An edge that is not crossed leaves the search as it is and is done. -/
theorem Scanning.skip {search : Search α} {current position : Nat} {todo : List Nat}
    (scanning : Scanning rule network source level current (position :: todo) search)
    (known : ∀ target, rule.Crosses network ⟨position, current, target⟩ →
      search.tree.isMarked target) :
    Scanning rule network source level current todo search := by
  refine { scanning with crossed := ?_ }
  intro arc crosses origin absent
  by_cases same : arc.edge = position
  · exact known arc.target (by rw [← origin, ← same]; exact crosses)
  · exact scanning.crossed arc crosses origin (by simp [same, absent])

/-- A new vertex comes last in the queue, one level above the current one. -/
theorem Scanning.reach {search : Search α} {current position next : Nat} {todo : List Nat}
    (scanning : Scanning rule network source level current (position :: todo) search)
    (crosses : rule.Crosses network ⟨position, current, next⟩)
    (fresh : search.tree.marked[next]? = some false) :
    Scanning rule network source (Function.update level next (level current + 1)) current todo
      { search with
        tree := search.tree.reach next position, queue := search.queue ++ [next] } := by
  obtain ⟨inRange, unmarked⟩ := (search.tree.marked_eq_false_iff next).mp fresh
  have mark := search.tree.isMarked_reach inRange position
  have different {vertex : Nat} (old : search.tree.isMarked vertex) : vertex ≠ next := by
    rintro rfl
    exact Bool.false_ne_true (unmarked.symm.trans old)
  have keep {vertex : Nat} (old : search.tree.isMarked vertex) :
      Function.update level next (level current + 1) vertex = level vertex :=
    Function.update_of_ne (different old) _ _
  have here := keep scanning.marked
  constructor
  case noFault => exact scanning.noFault
  case tree => exact scanning.tree.reach scanning.marked crosses fresh
  case marked => exact (mark current).mpr (Or.inr scanning.marked)
  case queued =>
    intro vertex member
    rcases List.mem_append.mp member with old | new
    · exact (mark vertex).mpr (Or.inr (scanning.queued vertex old))
    · exact (mark vertex).mpr (Or.inl (List.mem_singleton.mp new))
  case ordered =>
    rw [List.pairwise_append]
    refine ⟨scanning.ordered.imp_of_mem ?_, List.pairwise_singleton _ _, ?_⟩
    · intro first second firstQueued secondQueued lower
      rwa [keep (scanning.queued first firstQueued), keep (scanning.queued second secondQueued)]
    · intro vertex old new last
      rw [List.mem_singleton.mp last, Function.update_self, keep (scanning.queued vertex old)]
      exact scanning.below vertex (scanning.queued vertex old)
  case above =>
    intro vertex member
    rw [here]
    rcases List.mem_append.mp member with old | new
    · rw [keep (scanning.queued vertex old)]
      exact scanning.above vertex old
    · rw [List.mem_singleton.mp new, Function.update_self]
      omega
  case below =>
    intro vertex reached
    rw [here]
    rcases (mark vertex).mp reached with rfl | old
    · rw [Function.update_self]
    · rw [keep old]
      exact scanning.below vertex old
  case closed =>
    intro origin reached absent differ target leads
    rw [List.mem_append, not_or, List.mem_singleton] at absent
    have old := ((mark origin).mp reached).resolve_left absent.2
    obtain ⟨known, low⟩ := scanning.closed origin old absent.1 differ target leads
    rw [keep known, keep old]
    exact ⟨(mark target).mpr (Or.inr known), low⟩
  case crossed =>
    intro arc crossing origin absent
    by_cases same : arc.edge = position
    · obtain ⟨-, edge, stands, leads, -⟩ := crossing
      obtain ⟨-, other, standsToo, leadsToo, -⟩ := crosses
      rw [same, standsToo] at stands
      rw [← Option.some.inj stands, origin, leadsToo] at leads
      exact (mark arc.target).mpr (Or.inl (Option.some.inj leads).symm)
    · have done := scanning.crossed arc crossing origin (by simp [same, absent])
      exact (mark arc.target).mpr (Or.inr done)

/-- The blanks and the queue together count down to the end of the search. -/
def remaining (search : Search α) : Nat :=
  search.tree.blanks + search.queue.length

/-- Crossing the next edge keeps the invariant and the count. -/
theorem Scanning.cross {search : Search α} {current position : Nat} {todo : List Nat}
    (decides : rule.Decides network)
    (scanning : Scanning rule network source level current (position :: todo) search)
    (incident : position ∈ network.incident current) :
    ∃ next, Scanning rule network source next current todo
        (Search.cross network rule current search position) ∧
      (Search.cross network rule current search position).remaining = search.remaining := by
  have inside : current < network.vertexCount :=
    scanning.tree.markedSize ▸ SearchTree.lt_size_of_isMarked scanning.marked
  obtain ⟨edge, stands, verdict⟩ := decides current inside position incident
  have same {target : Nat} (crosses : rule.Crosses network ⟨position, current, target⟩) :
      rule.next current edge = some target ∧ rule.admits current edge = .ok true := by
    obtain ⟨-, other, standsToo, leads, admits⟩ := crosses
    rw [standsToo] at stands
    rw [← Option.some.inj stands]
    exact ⟨leads, admits⟩
  simp only [Search.cross, scanning.noFault, stands]
  cases leads : rule.next current edge with
  | none =>
    refine ⟨level, scanning.skip ?_, rfl⟩
    intro target crosses
    rw [(same crosses).1] at leads
    cases leads
  | some next =>
    obtain ⟨inRange, admitted, admits⟩ := verdict next leads
    rw [← scanning.tree.markedSize] at inRange
    by_cases fresh : search.tree.marked[next]? = some false
    · simp only [fresh, if_true, admits]
      cases admitted with
      | true =>
        have crosses : rule.Crosses network ⟨position, current, next⟩ :=
          ⟨incident, edge, stands, leads, admits⟩
        refine ⟨_, scanning.noFault ▸ scanning.reach crosses fresh, ?_⟩
        have fewer := search.tree.blanks_reach fresh position
        simp only [remaining, List.length_append, List.length_singleton]
        omega
      | false =>
        refine ⟨level, scanning.skip ?_, rfl⟩
        intro target crosses
        rw [(same crosses).2] at admits
        cases admits
    · simp only [if_neg fresh]
      refine ⟨level, scanning.skip ?_, trivial⟩
      intro target crosses
      rw [(same crosses).1] at leads
      rw [search.tree.marked_eq_false_iff, not_and, Bool.not_eq_false] at fresh
      rw [Option.some.inj leads]
      exact fresh inRange

/-- A scan crosses every edge at the current vertex. -/
theorem Scanning.complete (decides : rule.Decides network) {current : Nat} :
    ∀ {todo : List Nat} {level : Nat → Nat} {search : Search α},
      (∀ position ∈ todo, position ∈ network.incident current) →
      Scanning rule network source level current todo search →
      ∃ next, Scanning rule network source next current []
          (todo.foldl (Search.cross network rule current) search) ∧
        (todo.foldl (Search.cross network rule current) search).remaining = search.remaining := by
  intro todo
  induction todo with
  | nil => exact fun _ scanning => ⟨_, scanning, rfl⟩
  | cons position todo inductionHypothesis =>
    intro level search incident scanning
    obtain ⟨next, crossed, count⟩ := scanning.cross decides (incident position (by simp))
    obtain ⟨last, completed, total⟩ := inductionHypothesis
      (fun other member => incident other (by simp [member])) crossed
    exact ⟨last, completed, total.trans count⟩

/-- One vertex from the queue is scanned, and the count falls by one. -/
theorem Exploring.scan (decides : rule.Decides network) {search : Search α} {current : Nat}
    {rest : List Nat} (exploring : Exploring rule network source level search)
    (queue : search.queue = current :: rest) :
    ∃ next, Exploring rule network source next
        (Search.scan network rule { search with queue := rest } current) ∧
      (Search.scan network rule { search with queue := rest } current).remaining + 1 =
        search.remaining := by
  obtain ⟨next, scanned, count⟩ :=
    Scanning.complete decides (fun _ member => member) (exploring.pop queue)
  refine ⟨next, scanned.finish, ?_⟩
  simp only [Search.scan, count]
  simp only [remaining, queue, List.length_cons]
  omega

/-- An exploration with enough fuel ends with an empty queue or at its goal. -/
theorem Exploring.explore (decides : rule.Decides network) (goal : Option Nat) :
    ∀ (fuel : Nat) {level : Nat → Nat} {search : Search α},
      Exploring rule network source level search → search.remaining ≤ fuel →
      ∃ next, Exploring rule network source next (Search.explore network rule goal fuel search) ∧
        ((Search.explore network rule goal fuel search).queue = [] ∨
          ∃ last, goal = some last ∧
            (Search.explore network rule goal fuel search).tree.isMarked last) := by
  intro fuel
  induction fuel with
  | zero =>
    intro level search exploring enough
    have empty : search.queue.length = 0 := by simp only [remaining] at enough; omega
    exact ⟨level, exploring, Or.inl (List.length_eq_zero_iff.mp empty)⟩
  | succ fuel inductionHypothesis =>
    intro level search exploring enough
    simp only [Search.explore]
    split
    · rename_i ended
      refine ⟨level, exploring, Or.inr ?_⟩
      simpa [hasEnded, exploring.noFault, Option.any_eq_true] using ended
    · split
      · rename_i empty
        exact ⟨level, exploring, Or.inl empty⟩
      · rename_i current rest queue
        obtain ⟨next, scanned, count⟩ := exploring.scan decides queue
        exact inductionHypothesis scanned (by omega)

/-- Only the source is reached at the start. -/
theorem exploring_start (rule : Crossing α) {network : Network α} {source : Nat}
    (inRange : source < network.vertexCount) :
    Exploring rule network source (fun _ => 0) (start network.vertexCount source) ∧
      (start network.vertexCount source : Search α).remaining = network.vertexCount := by
  have size : (SearchTree.blank network.vertexCount).marked.size = network.vertexCount := by
    simp [SearchTree.blank]
  have mark := (SearchTree.blank network.vertexCount).isMarked_markRoot source
    (by rw [size]; exact inRange)
  simp only [SearchTree.isMarked_blank, Bool.false_eq_true, or_false] at mark
  have blanks : ((SearchTree.blank network.vertexCount).markRoot source).blanks + 1 =
      network.vertexCount := by
    simp [SearchTree.blanks, SearchTree.markRoot, SearchTree.blank, Array.setIfInBounds, inRange,
      Array.count_set]
    omega
  have bare (vertex : Nat) :
      ((SearchTree.blank network.vertexCount).markRoot source).entry vertex = none :=
    SearchTree.entry_blank network.vertexCount vertex
  constructor
  · constructor
    case noFault => rfl
    case tree =>
      constructor
      case markedSize => simp [start, SearchTree.markRoot, SearchTree.blank]
      case edgeToSize => simp [start, SearchTree.markRoot, SearchTree.blank]
      case rootMarked => exact (mark source).mpr rfl
      case rootLevel => rfl
      case parent => exact fun vertex marked differ => absurd ((mark vertex).mp marked) differ
      case bare => exact fun vertex _ => bare vertex
      case rootBare => exact bare source
      case bounded =>
        intro vertex marked
        simp only [start]
        omega
    case queued => exact fun vertex member => (mark vertex).mpr (List.mem_singleton.mp member)
    case ordered => exact List.pairwise_singleton _ _
    case below => exact fun _ _ _ _ => Nat.zero_le _
    case closed =>
      intro origin marked absent
      exact absurd (List.mem_singleton.mpr ((mark origin).mp marked)) absent
  · simpa [remaining, start] using blanks

/-- A search with a goal ends with everything reached or with its goal reached. -/
theorem run_exploring (decides : rule.Decides network) (goal : Option Nat)
    (inRange : source < network.vertexCount) :
    ∃ level, Exploring rule network source level (run network rule goal source) ∧
      ((run network rule goal source).queue = [] ∨
        ∃ last, goal = some last ∧ (run network rule goal source).tree.isMarked last) := by
  obtain ⟨exploring, count⟩ := exploring_start rule inRange
  exact exploring.explore decides goal network.vertexCount (Nat.le_of_eq count)

/-- A search without a goal fails nowhere and spans what the rule reaches. -/
theorem run_spans (decides : rule.Decides network) (inRange : source < network.vertexCount) :
    (run network rule none source).fault = none ∧
      ∃ level, (run network rule none source).tree.Spans rule network source level := by
  obtain ⟨level, exploring, ended⟩ := run_exploring decides none inRange
  have empty : (run network rule none source).queue = [] := by simpa using ended
  refine ⟨exploring.noFault, level, { exploring.tree with closed := ?_ }⟩
  intro origin marked target leads
  exact exploring.closed origin marked (by simp [empty]) target leads

end Search
end NetworkFlow
