import SpriteStage.Proofs.Actor.Channels

/-!
# Starting afresh

No step changes the asset of an actor, its seed, the easing of motions that name none or what a
reset makes of the animator (`sameOrigin_take`). So a reset leads back to the new actor, whatever
was done before, but for the node, which it leaves as it is; and from then on every run goes as it
goes with a new actor (`afresh_of_reset`).
-/

set_option autoImplicit false

namespace SpriteStage

theorem Motions.defaultEasing_startRotate (m : Motions) (current angle : Float32)
    (options : MoveOptions) :
    (m.startRotate current angle options).state.defaultEasing = m.defaultEasing := by
  cases hcheck : options.timing.check with
  | error fault => rw [startRotate_of_error hcheck]; rfl
  | ok u => rw [startRotate_of_ok hcheck]; rfl

namespace Actor

variable {a b c : Actor}

/-! ## Replies -/

/-- What comes of a step, with the answer that a tick gives and that no other step has. -/
def reply (a : Actor) (sheet : FrameSheet) : ActorStep → Outcome Actor (Option Bool)
  | .command (.tick elapsed) =>
    let o := a.tick elapsed sheet
    { o with result := o.result.map some }
  | step =>
    let o := a.take sheet step
    { o with result := o.result.map fun _ => none }

/-- What comes of the steps of a run, each with its sheet. -/
def replies (a : Actor) : List (FrameSheet × ActorStep) → List (Outcome Actor (Option Bool))
  | [] => []
  | (sheet, step) :: rest =>
    a.reply sheet step :: replies (a.take sheet step).state rest

/-- The actor after a run. -/
def ran (a : Actor) (run : List (FrameSheet × ActorStep)) : Actor :=
  run.foldl (fun b s => (b.take s.1 s.2).state) a

@[simp] theorem ran_nil (a : Actor) : a.ran [] = a := rfl

@[simp] theorem ran_cons (a : Actor) (sheet : FrameSheet) (step : ActorStep)
    (rest : List (FrameSheet × ActorStep)) :
    a.ran ((sheet, step) :: rest) = (a.take sheet step).state.ran rest := rfl

/-- What every step keeps, a run keeps. -/
theorem Kept.ran {P : Actor → Prop} (hkept : Kept P) (h : P a)
    (run : List (FrameSheet × ActorStep)) : P (a.ran run) := by
  induction run generalizing a with
  | nil => exact h
  | cons first rest ih => exact ih (hkept a first.1 first.2 h)

/-! ## Origins -/

theorem SameOrigin.trans (h : a.SameOrigin b) (k : b.SameOrigin c) : a.SameOrigin c where
  asset_eq := k.asset_eq.trans h.asset_eq
  seed_eq := k.seed_eq.trans h.seed_eq
  easing_eq := k.easing_eq.trans h.easing_eq
  reset_eq random := (k.reset_eq random).trans (h.reset_eq random)

theorem sameOrigin_started (a : Actor) (o : Outcome Animator Unit) (sheet : FrameSheet)
    (h : ∀ random, o.state.reset random = a.animator.reset random) :
    a.SameOrigin (a.started o sheet).state :=
  sameOrigin_of_outline_eq (outline_started a o sheet) h

/-- No step changes where an actor comes from. -/
theorem sameOrigin_take (a : Actor) (sheet : FrameSheet) (step : ActorStep) :
    a.SameOrigin (a.take sheet step).state := by
  cases step with
  | command command =>
      cases command with
      | animate name reverse timeScale =>
          exact a.sameOrigin_started _ sheet (a.animator.reset_animate name reverse timeScale)
      | animateManual steps reverse timeScale =>
          exact a.sameOrigin_started _ sheet
            (a.animator.reset_animateManual steps reverse timeScale)
      | showFrame frame => exact ⟨rfl, rfl, rfl, a.animator.reset_setFrame frame⟩
      | stop => exact ⟨rfl, rfl, rfl, a.animator.reset_stop⟩
      | tick elapsed => exact a.sameOrigin_tick elapsed sheet
      | moveTo target options =>
          exact ⟨rfl, rfl, Motions.defaultEasing_startMove _ _ _ options, fun _ => rfl⟩
      | rotateTo target options =>
          exact ⟨rfl, rfl, Motions.defaultEasing_startRotate _ _ _ options, fun _ => rfl⟩
      | cancel => exact ⟨rfl, rfl, rfl, fun _ => rfl⟩
      | reset => exact ⟨rfl, rfl, rfl, fun _ => rfl⟩
  | write part => exact ⟨rfl, rfl, rfl, fun _ => rfl⟩
  | mark placed => exact ⟨rfl, rfl, rfl, fun _ => rfl⟩

theorem kept_sameOrigin (a : Actor) : Kept a.SameOrigin :=
  fun b sheet step h => h.trans (b.sameOrigin_take sheet step)

/-- An actor that comes from a new one is reset to that, with the node that it has. -/
theorem SameOrigin.reset_eq_create {asset : Asset} {node : SpriteNode} {config : Config}
    (h : (create asset node config).SameOrigin a) : a.reset = create asset a.node config := by
  have hasset : a.asset = asset := h.asset_eq
  have hseed : a.seed = config.seed := h.seed_eq
  have heasing : a.motions.defaultEasing = config.defaultEasing := h.easing_eq
  have hanimator : a.animator.reset (.forActor a.seed a.asset.name) =
      .create asset.animations config (.forActor config.seed asset.name) := by
    rw [h.reset_eq, hseed, hasset]
    rfl
  rw [reset, Motions.cancel, hanimator, hasset, hseed, heasing]
  rfl

/-! ## Resetting -/

/-- The actor is reset to a new one, in all its parts and in all that it does later. -/
structure Afresh (asset : Asset) (config : Config) (a : Actor) : Prop where
  /-- The animator is new: its playback, its random source, its animations, its bounds and its time
  scale. -/
  animator_eq : a.reset.animator =
    .create asset.animations config (.forActor config.seed asset.name)
  /-- There are no motions, and the easing of those that name none is the configured one. -/
  motions_eq : a.reset.motions = { defaultEasing := config.defaultEasing }
  /-- The actor is not on the stage. -/
  placed_eq : a.reset.placed = false
  /-- The node stays as it is. -/
  node_eq : a.reset.node = a.node
  /-- Nothing else is in an actor, so it is a new one with that node. -/
  reset_eq : a.reset = create asset a.node config
  /-- Every run gives what it gives with the new actor: results, signals, log lines and states. -/
  replies_eq : ∀ later, a.reset.replies later = (create asset a.node config).replies later

/-- After any run, a reset starts the actor afresh. -/
theorem afresh_of_reset (asset : Asset) (node : SpriteNode) (config : Config)
    (before : List (FrameSheet × ActorStep)) :
    ((create asset node config).ran before).Afresh asset config := by
  have horigin := (kept_sameOrigin _).ran (SameOrigin.refl (create asset node config)) before
  have hreset := horigin.reset_eq_create
  refine ⟨?_, ?_, rfl, rfl, hreset, ?_⟩
  · exact congrArg Actor.animator hreset
  · exact congrArg Actor.motions hreset
  · intro later
    rw [hreset]

end Actor

end SpriteStage
