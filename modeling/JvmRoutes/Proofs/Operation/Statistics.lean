import JvmRoutes.Operation.Statistics
import JvmRoutes.Proofs.OrderedMap.Tally

/-!
What the counts over operations have to do with each other, and with those over two parts that the
operations are split into.
-/
namespace JvmRoutes.Statistics

open OrderedMap

/-- Every operation counts once as such, with its verb and with its controller, and every input and
every body once. -/
structure IsBalanced (operations : List Operation) (s : Statistics) : Prop where
  operations_eq : s.operations = operations.length
  verbs : s.verbs.Counts (operations.map (·.verb))
  sum_verbs : s.verbs.values.sum = s.operations
  controllers : s.controllers.Counts (operations.map (·.controller))
  sum_controllers : s.controllers.values.sum = s.operations
  controllerCount_eq : s.controllerCount = s.controllers.keys.length
  locations : s.locations.Counts
    (operations.flatMap fun o => o.parameters.map (·.location.name))
  sum_locations : s.locations.values.sum = (operations.map (·.parameters.length)).sum
  mediaTypes : s.mediaTypes.Counts (operations.filterMap fun o => o.body.map (·.mediaType))
  sum_mediaTypes : s.mediaTypes.values.sum = s.bodies
  bodies_eq : s.bodies = (operations.filter (·.body.isSome)).length
  deprecated_eq : s.deprecated = (operations.filter (·.deprecated)).length

/-- The counts over all operations are the sums of those over two parts, but for that of the
controllers, which may be the same in both. -/
structure IsSumOf (first second s : Statistics) : Prop where
  operations : s.operations = first.operations + second.operations
  verbs : IsSum first.verbs second.verbs s.verbs
  controllers : IsSum first.controllers second.controllers s.controllers
  controllerCount : s.controllerCount =
    (first.controllers.keys.toFinset ∪ second.controllers.keys.toFinset).card
  locations : IsSum first.locations second.locations s.locations
  mediaTypes : IsSum first.mediaTypes second.mediaTypes s.mediaTypes
  bodies : s.bodies = first.bodies + second.bodies
  deprecated : s.deprecated = first.deprecated + second.deprecated

theorem bodies_eq_sum (s : Statistics) : s.bodies = s.mediaTypes.values.sum := by
  rw [bodies, List.sum_eq_foldl]

theorem isBalanced_ofOperations (operations : List Operation) :
    IsBalanced operations (ofOperations operations) := by
  have hverbs := counts_tally (operations.map (·.verb))
  have hcontrollers := counts_tally (operations.map (·.controller))
  have hlocations := counts_tally
    (operations.flatMap fun o => o.parameters.map (·.location.name))
  have hmediaTypes := counts_tally (operations.filterMap fun o => o.body.map (·.mediaType))
  have hbodies := bodies_eq_sum (ofOperations operations)
  refine
    { operations_eq := rfl
      verbs := hverbs
      sum_verbs := hverbs.sum.trans (List.length_map _)
      controllers := hcontrollers
      sum_controllers := hcontrollers.sum.trans (List.length_map _)
      controllerCount_eq := congrArg List.length hcontrollers.keys.symm
      locations := hlocations
      sum_locations := ?_
      mediaTypes := hmediaTypes
      sum_mediaTypes := hbodies.symm
      bodies_eq := ?_
      deprecated_eq := rfl }
  · refine hlocations.sum.trans ?_
    rw [List.length_flatMap]
    simp only [List.length_map]
  · refine hbodies.trans (hmediaTypes.sum.trans ?_)
    rw [List.length_filterMap_eq_countP, List.countP_eq_length_filter]
    simp only [Option.isSome_map]

theorem isSumOf_append (front back : List Operation) :
    IsSumOf (ofOperations front) (ofOperations back) (ofOperations (front ++ back)) := by
  have hf := isBalanced_ofOperations front
  have hb := isBalanced_ofOperations back
  have h := isBalanced_ofOperations (front ++ back)
  have hverbs := h.verbs
  have hcontrollers := h.controllers
  have hlocations := h.locations
  have hmediaTypes := h.mediaTypes
  rw [List.map_append] at hverbs hcontrollers
  rw [List.flatMap_append] at hlocations
  rw [List.filterMap_append] at hmediaTypes
  refine
    { operations := List.length_append
      verbs := hf.verbs.isSum hb.verbs hverbs
      controllers := hf.controllers.isSum hb.controllers hcontrollers
      controllerCount := ?_
      locations := hf.locations.isSum hb.locations hlocations
      mediaTypes := hf.mediaTypes.isSum hb.mediaTypes hmediaTypes
      bodies := ?_
      deprecated := ?_ }
  · rw [h.controllerCount_eq, hf.controllers.length_keys hb.controllers hcontrollers]
  · rw [h.bodies_eq, hf.bodies_eq, hb.bodies_eq, List.filter_append, List.length_append]
  · rw [h.deprecated_eq, hf.deprecated_eq, hb.deprecated_eq, List.filter_append,
      List.length_append]

/-- The counts agree with each other, and those over operations one behind the other are the sums
of the counts over the parts. -/
theorem isBalanced_and_isSumOf :
    (∀ operations, IsBalanced operations (ofOperations operations)) ∧
      ∀ front back, IsSumOf (ofOperations front) (ofOperations back) (ofOperations (front ++ back)) :=
  ⟨isBalanced_ofOperations, isSumOf_append⟩

end JvmRoutes.Statistics
