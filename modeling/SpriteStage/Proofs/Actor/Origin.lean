import SpriteStage.Proofs.Actor.Outline

/-!
# What an actor keeps

Actions and time leave the asset of an actor as it is, and its seed, the easing of motions that name
none, and what a reset keeps of the animator. So an actor goes back to the same place, in outline,
before and after it has done something (`SameOrigin.outline_backstage`).
-/

set_option autoImplicit false

namespace SpriteStage.Actor

/-- What a restart makes of an actor: it is reset and hidden. -/
def backstage (a : Actor) : Actor :=
  { a.reset with node := { a.reset.node with visible := false } }

/-- What no action and no time changes: the asset, the seed, the easing of motions that name none,
and all of the animator that a reset keeps. -/
structure SameOrigin (a b : Actor) : Prop where
  /-- The asset. -/
  asset_eq : b.asset = a.asset
  /-- The seed. -/
  seed_eq : b.seed = a.seed
  /-- The easing. -/
  easing_eq : b.motions.defaultEasing = a.motions.defaultEasing
  /-- The animator after a reset. -/
  reset_eq : ∀ random, b.animator.reset random = a.animator.reset random

variable {paced : Bool} {a b : Actor}

theorem SameOrigin.refl (a : Actor) : a.SameOrigin a := ⟨rfl, rfl, rfl, fun _ => rfl⟩

theorem SameOrigin.outline_backstage (h : a.SameOrigin b) :
    b.backstage.outline paced = a.backstage.outline paced := by
  refine outline_eq_iff.2 ⟨h.asset_eq, ?_, rfl, h.seed_eq, rfl, ?_⟩
  · show b.animator.reset (.forActor b.seed b.asset.name) =
      a.animator.reset (.forActor a.seed a.asset.name)
    rw [h.seed_eq, h.asset_eq, h.reset_eq]
  · show b.motions.cancel.outline paced = a.motions.cancel.outline paced
    rw [Motions.outline_cancel, Motions.outline_cancel]
    unfold Motions.cancel
    rw [h.easing_eq]

theorem eq_of_outline_eq (h : a.outline paced = b.outline paced) (hnode : a.node = b.node)
    (hmotions : a.motions = b.motions) : a = b := by
  obtain ⟨hasset, hanimator, hplaced, hseed, -, -⟩ := outline_eq_iff.1 h
  cases a
  cases b
  cases hasset
  cases hanimator
  cases hplaced
  cases hseed
  cases hnode
  cases hmotions
  rfl

/-- An actor whose outline is that of another with a new animator is of one origin with it, if a
reset of the animators leads to the same. -/
theorem sameOrigin_of_outline_eq {animator : Animator}
    (h : b.outline false = { a.outline false with animator := animator })
    (hreset : ∀ random, animator.reset random = a.animator.reset random) : a.SameOrigin b := by
  have hanimator : b.animator = animator := congrArg (fun c => c.animator) h
  have heasing : b.motions.defaultEasing = a.motions.defaultEasing :=
    congrArg (fun c => c.motions.defaultEasing) h
  refine ⟨congrArg (fun c => c.asset) h, congrArg (fun c => c.seed) h, heasing, ?_⟩
  intro random
  rw [hanimator, hreset]

theorem sameOrigin_perform (a : Actor) (action : SceneAction) (sheet : FrameSheet) :
    a.SameOrigin (a.perform action sheet).state := by
  cases action with
  | place target => exact ⟨rfl, rfl, rfl, a.animator.reset_setFrame 0⟩
  | unplace => exact ⟨rfl, rfl, rfl, fun _ => rfl⟩
  | animate animation reverse frameTime =>
      have hreset := a.animator.reset_animate animation reverse frameTime
      exact sameOrigin_of_outline_eq (outline_started a _ sheet) hreset
  | move target duration speed ease =>
      cases hoptions : MoveOptions.ofFields duration speed ease with
      | error cause =>
          rw [perform_move_of_error hoptions]
          exact SameOrigin.refl a
      | ok options =>
          rw [perform_move_of_ok hoptions]
          exact ⟨rfl, rfl, Motions.defaultEasing_startMove _ _ _ options, fun _ => rfl⟩

theorem sameOrigin_tick (a : Actor) (elapsed : Float32) (sheet : FrameSheet) :
    a.SameOrigin (a.tick elapsed sheet).state := by
  unfold tick
  by_cases hfinite : elapsed.isFinite = false
  · rw [if_pos hfinite]
    exact SameOrigin.refl a
  · rw [if_neg hfinite]
    -- the motions come after the animator, and leave the rest as it is
    have hfollow := sameOrigin_of_outline_eq (outline_follow a (a.animator.tick elapsed) sheet)
      (a.animator.reset_tick elapsed)
    exact ⟨hfollow.asset_eq, hfollow.seed_eq, hfollow.easing_eq, hfollow.reset_eq⟩

end SpriteStage.Actor
