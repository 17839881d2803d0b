import NetworkFlow.Drawing
import NetworkFlow.Proofs.Arithmetic.Number

namespace NetworkFlow

/-- The arrows of a call, each with its color. -/
def DrawingCall.arrows : DrawingCall → List (String × (Text × Text))
  | .edges pairs color _ _ _ => pairs.map (Prod.mk color)
  | _ => []

/-- The arrows of a sketch in the order in which they were drawn. -/
def Sketch.arrows (sketch : Sketch) : List (String × (Text × Text)) :=
  sketch.calls.flatMap DrawingCall.arrows

/-- A layout can be arranged when it or the layout that replaces it does not fail. -/
def Canvas.Arranges (canvas : Canvas) (layout : Text) : Prop :=
  ((Drawing.layouts.find? fun known => Text.ofString known = layout).getD "spring") ∉
    canvas.failing ∨ "spring" ∉ canvas.failing

namespace Drawing

/-- A drawing draws arrows when it gives a value and appends them, whatever was drawn before. -/
def Draws {β : Type} (drawing : Drawing β) (value : β)
    (arrows : List (String × (Text × Text))) : Prop :=
  ∀ sketch : Sketch, ∃ after, (ExceptT.run drawing).run sketch = (.ok value, after) ∧
    after.arrows = sketch.arrows ++ arrows

variable {β γ : Type} {arrows more : List (String × (Text × Text))}

theorem Draws.pure (value : β) : Draws (pure value) value [] :=
  fun sketch => ⟨sketch, rfl, (List.append_nil _).symm⟩

/-- The arrows of two steps follow each other. -/
theorem Draws.bind {drawing : Drawing β} {next : β → Drawing γ} {value : β} {result : γ}
    (first : Draws drawing value arrows) (second : Draws (next value) result more) :
    Draws (drawing >>= next) result (arrows ++ more) := by
  intro sketch
  obtain ⟨middle, ran, drawn⟩ := first sketch
  obtain ⟨after, ranToo, drawnToo⟩ := second middle
  refine ⟨after, ?_, by rw [drawnToo, drawn, List.append_assoc]⟩
  rw [ExceptT.run_bind, StateT.run_bind, ran]
  exact ranToo

/-- A step without arrows may come first. -/
theorem Draws.andThen {drawing : Drawing β} {next : β → Drawing γ} {value : β} {result : γ}
    (first : Draws drawing value []) (second : Draws (next value) result arrows) :
    Draws (drawing >>= next) result arrows :=
  first.bind second

/-- A step without arrows may come last. -/
theorem Draws.ahead {drawing : Drawing β} {next : β → Drawing γ} {value : β} {result : γ}
    (first : Draws drawing value arrows) (second : Draws (next value) result []) :
    Draws (drawing >>= next) result arrows := by
  have both := first.bind second
  rwa [List.append_nil] at both

/-- A value that is computed without a fault draws nothing. -/
theorem Draws.lift {outcome : Except (Fault Number) β} {value : β}
    (computed : outcome = .ok value) : Draws (liftM outcome) value [] := by
  subst computed
  exact fun sketch => ⟨sketch, rfl, (List.append_nil _).symm⟩

theorem draws_draw (call : DrawingCall) : Draws (draw call) () call.arrows :=
  fun sketch => ⟨{ sketch with calls := sketch.calls ++ [call] }, rfl, by
    simp [Sketch.arrows, List.flatMap_append]⟩

theorem draws_announce (event : Event Number) : Draws (announce event) () [] :=
  fun sketch => ⟨{ sketch with events := sketch.events ++ [event] }, rfl,
    (List.append_nil _).symm⟩

/-- A step that announces an event first or does not draws the same. -/
theorem Draws.announced {unusual : Prop} [Decidable unusual] {event : Event Number}
    {drawing : Drawing β} {value : β} (draws : Draws drawing value arrows) :
    Draws (if unusual then announce event >>= fun _ => drawing else drawing) value arrows := by
  split
  · exact (draws_announce event).andThen draws
  · exact draws

/-- A layout is no arrow. -/
theorem draws_arrange {canvas : Canvas} {layout : Text} (arranges : canvas.Arranges layout) :
    Draws (arrange canvas layout) () [] := by
  unfold arrange
  dsimp only
  refine Draws.announced ((draws_draw _).andThen ?_)
  rw [Canvas.Arranges] at arranges
  split
  · next failed =>
    have replaced : canvas.failing.contains "spring" = false := by
      simpa using arranges.resolve_left (not_not.mpr (List.contains_iff_mem.mp failed))
    refine (draws_announce _).andThen ((draws_draw _).andThen ?_)
    rw [if_neg (by rw [replaced]; decide)]
    exact .pure ()
  · exact .pure ()

/-- Nodes are no arrows. -/
theorem draws_drawGroups (groups : List (List Text × String × String)) (size : Number) :
    Draws (drawGroups groups size) () [] := by
  refine Draws.andThen (?_ : Draws _ PUnit.unit []) (.pure ())
  induction groups with
  | nil => exact .pure PUnit.unit
  | cons group rest inductionHypothesis =>
    rw [List.forIn_cons]
    refine Draws.andThen (?_ : Draws _ (ForInStep.yield PUnit.unit) []) inductionHypothesis
    dsimp only
    split
    · exact (draws_draw _).andThen (.pure _)
    · exact .pure _

/-- Flow edges are drawn as arrows of one color. -/
theorem draws_drawFlowEdges (edges : List ((Text × Text) × Number)) (color : String)
    (opacityTenths : Nat) (label : Option String) :
    Draws (drawFlowEdges edges color opacityTenths label) ()
      (edges.map fun entry => (color, entry.1)) := by
  unfold drawFlowEdges
  split
  · have drawn := draws_draw (.edges (edges.map Prod.fst) color (some (edges.map Prod.snd))
      (some (.real (.ofDecimal false opacityTenths (-1)))) label)
    rw [DrawingCall.arrows, List.map_map] at drawn
    exact drawn
  · next empty =>
    obtain rfl : edges = [] := by simpa using empty
    exact .pure ()

theorem draws_finish (style : DrawingStyle) (title : Text) :
    Draws (finish style title) () [] :=
  (draws_draw _).andThen ((draws_draw _).andThen ((draws_draw _).andThen (draws_draw _)))

/-- The size of the labels of edges can always be computed. -/
theorem exists_sub_two (size : Number) : ∃ smaller, checked (size.sub (.int 2)) = .ok smaller := by
  obtain ⟨two, converted, -⟩ := Number.exact_toBinary (Number.value?_int 2) (by decide)
  cases size with
  | int value => exact ⟨.int (value - 2), rfl⟩
  | truth value => exact ⟨.int (value.toInt - 2), rfl⟩
  | real value =>
    refine ⟨.real (value.sub two), ?_⟩
    have taken : (Number.real value).sub (.int 2) = .ok (.real (value.sub two)) := by
      rw [Number.sub, Number.combine]
      dsimp only [Number.value]
      rw [converted]
      rfl
    rw [taken, checked]
    rfl

theorem draws_drawEdgeLabels (style : DrawingStyle) (labels : List ((Text × Text) × String)) :
    Draws (drawEdgeLabels style labels) () [] := by
  obtain ⟨smaller, computed⟩ := exists_sub_two style.fontSize
  exact (Draws.lift computed).andThen (draws_draw _)

/-- What is computed for each edge keeps the names of the edges. -/
theorem draws_keyed {entries : List ((Text × Text) × β)}
    (compute : β → Except (Fault Number) γ)
    (each : ∀ entry ∈ entries, ∃ value, compute entry.2 = .ok value) :
    ∃ results : List ((Text × Text) × γ), results.map Prod.fst = entries.map Prod.fst ∧
      Draws (entries.mapM fun entry => do return (entry.1, ← compute entry.2)) results [] := by
  induction entries with
  | nil => exact ⟨[], rfl, .pure []⟩
  | cons first rest inductionHypothesis =>
    obtain ⟨value, computed⟩ := each first (by simp)
    obtain ⟨results, keys, drawn⟩ := inductionHypothesis fun entry member =>
      each entry (by simp [member])
    refine ⟨(first.1, value) :: results, by rw [List.map_cons, List.map_cons, keys], ?_⟩
    rw [List.mapM_cons]
    exact Draws.andThen ((Draws.lift computed).andThen (.pure _)) (drawn.andThen (.pure _))

/-- The pairs of names that cross a cut. -/
def crosses (highlight : Bool) (cutSide : List Text) (pair : Text × Text) : Bool :=
  highlight && cutSide.contains pair.1 && !cutSide.contains pair.2

/-- The split sends the crossing edges to the left. -/
theorem splitEdges_eq (highlight : Bool) (cutSide : List Text)
    (edges : List ((Text × Text) × β)) : splitEdges highlight cutSide edges =
      (edges.filter fun entry => crosses highlight cutSide entry.1,
        edges.filter fun entry => !crosses highlight cutSide entry.1) :=
  List.partition_eq_filter_filter

/-- A drawing that gives a value from every sketch gives it from the empty one. -/
theorem Draws.sketch {drawing : Drawing Unit} (draws : Draws drawing () arrows) :
    (sketch drawing).1 = .ok () ∧ (sketch drawing).2.arrows = arrows := by
  obtain ⟨after, ran, drawn⟩ := draws ⟨[], []⟩
  rw [Drawing.sketch, ran]
  exact ⟨rfl, drawn⟩

/-- The part of a merged network that a drawing of flows shows. -/
def shown (showZero : Bool) (merged : DrawnGraph Number) : DrawnGraph Number :=
  if showZero then merged else merged.keepEdges fun edge => !isZero edge.flow

/-- A graph can be drawn when the widths and the labels of its edges can be computed. -/
structure Drawable (graph : DrawnGraph Number) : Prop where
  width : ∀ entry ∈ graph.edgeList, ∃ wide,
    checked (width (largest graph.edgeList) entry.2.flow) = .ok wide
  label : ∀ entry ∈ graph.edgeList, ∃ text, flowLabel entry.2 = .ok text

/-- A drawing of flows has a gray arrow for each shown edge that does not cross the cut and a red
one for each that does. -/
theorem draws_flows {canvas : Canvas} {network : Network Number} {solution : Solution Number}
    {labels : Option (List Text)} {style : DrawingStyle} {highlight showZero : Bool}
    {merged : DrawnGraph Number} {cutSide : List Text} {shownValue : String}
    (available : canvas.available) (arranges : canvas.Arranges style.layout)
    (built : DrawnGraph.ofNetwork network labels (some solution.flows) = .ok merged)
    (named : cutNames network labels solution.minCut = .ok cutSide)
    (drawable : Drawable (shown showZero merged))
    (valued : general solution.value = .ok shownValue) :
    Draws (flows canvas network solution labels style highlight showZero) ()
      ((((shown showZero merged).edgeList.map Prod.fst).filter fun pair =>
          !crosses highlight cutSide pair).map (Prod.mk "gray") ++
        (((shown showZero merged).edgeList.map Prod.fst).filter
          (crosses highlight cutSide)).map (Prod.mk "red")) := by
  obtain ⟨widths, widthKeys, drawsWidths⟩ := draws_keyed (fun edge : DrawnEdge Number =>
    checked (width (largest (shown showZero merged).edgeList) edge.flow)) drawable.width
  obtain ⟨texts, -, drawsTexts⟩ := draws_keyed flowLabel drawable.label
  unfold flows
  rw [if_neg (by simp [available])]
  refine (Draws.lift built).andThen ((draws_draw _).andThen ((draws_arrange arranges).andThen
    ((Draws.lift named).andThen ((draws_drawGroups _ _).andThen (drawsWidths.andThen ?_)))))
  rw [← widthKeys, List.filter_map, List.filter_map, List.map_map, List.map_map, splitEdges_eq]
  refine (draws_drawFlowEdges _ "gray" 6 none).bind
    ((draws_drawFlowEdges _ "red" 8 (some "Min-cut edges")).ahead ?_)
  exact (draws_draw _).andThen (drawsTexts.andThen ((draws_drawEdgeLabels style texts).andThen
    ((Draws.lift valued).andThen (draws_finish style _))))

end Drawing
end NetworkFlow
