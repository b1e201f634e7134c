import SpriteStage.Actor
import SpriteStage.Proofs.Animator.Sound

/-!
# Actors of compiled assets

An actor of an asset that was read and compiled cannot reach a bad step, whatever is asked of it as
long as it plays the animations of its asset (`safe_of_ofData`). The node and the motions have no
part in that: an operation of the actor does to its animator what the operation of the animator
does, and nothing else. What is drawn on the way stands in the record of the random source, which
has permitted draws only.
-/

set_option autoImplicit false

namespace SpriteStage

/-- What may be asked of an actor that plays the animations of its asset. -/
inductive ActorCall where
  /-- Starts a named animation. -/
  | animate (name : String) (reverse : Bool) (timeScale : Option Float32) (sheet : FrameSheet)
  /-- Lets time pass. -/
  | tick (elapsed : Float32) (sheet : FrameSheet)
  /-- Ends the animation. -/
  | stop
  /-- Goes back to the start. -/
  | reset
  /-- Starts a motion of the position. -/
  | moveTo (target : Point Coordinate) (options : MoveOptions)
  /-- Starts a rotation. -/
  | rotateTo (target : Float32) (options : MoveOptions)
  /-- Stops the motions. -/
  | cancel

namespace Actor

/-- The actor after a call, whether the call succeeds or fails. -/
def react (a : Actor) : ActorCall → Actor
  | .animate name reverse timeScale sheet => (a.animate name reverse timeScale sheet).state
  | .tick elapsed sheet => (a.tick elapsed sheet).state
  | .stop => a.stop
  | .reset => a.reset
  | .moveTo target options => (a.moveTo target options).state
  | .rotateTo target options => (a.rotateTo target options).state
  | .cancel => a.cancel

/-- The actor after calls. -/
def after (a : Actor) (calls : List ActorCall) : Actor := calls.foldl react a

/-! ## What an operation does to the animator -/

theorem animator_follow {α : Type} (a : Actor) (o : Outcome Animator α) (sheet : FrameSheet) :
    (a.follow o sheet).state.animator = o.state := by
  unfold follow
  dsimp only
  cases (if o.signals.any Signal.isFrame = true then o.state.playback.frame else none) with
  | none => rfl
  | some frame => rfl

theorem started_eq (a : Actor) (o : Outcome Animator Unit) (sheet : FrameSheet) :
    (a.started o sheet).state.animator = o.state ∧ (a.started o sheet).result = o.result := by
  unfold started
  cases hresult : o.result with
  | ok u => exact ⟨animator_follow _ o sheet, hresult⟩
  | error cause => exact ⟨rfl, hresult⟩

theorem animator_tick (a : Actor) (elapsed : Float32) (sheet : FrameSheet) :
    (a.tick elapsed sheet).state.animator = (a.animator.tick elapsed).state := by
  unfold tick
  by_cases hinvalid : elapsed.isFinite = false
  · rw [if_pos hinvalid, Animator.tick_of_invalidElapsed hinvalid]
    rfl
  · rw [if_neg hinvalid]
    exact animator_follow a _ sheet

/-- The motions do not make a tick fail. -/
theorem error_of_tick (a : Actor) {elapsed : Float32} {sheet : FrameSheet} {e : AnimationError}
    (h : (a.tick elapsed sheet).result = .error e) : (a.animator.tick elapsed).result = .error e := by
  unfold tick at h
  by_cases hinvalid : elapsed.isFinite = false
  · rw [if_pos hinvalid] at h
    cases h
    rw [Animator.tick_of_invalidElapsed hinvalid]
    rfl
  · rw [if_neg hinvalid] at h
    -- the motions only add to the answer
    change (Except.map _ (a.animator.tick elapsed).result) = .error e at h
    cases hresult : (a.animator.tick elapsed).result with
    | ok changed =>
        rw [hresult] at h
        cases h
    | error cause =>
        rw [hresult] at h
        cases h
        rfl

/-! ## Runs -/

variable {animations : AnimationSet} {count : Nat} {a : Actor}

/-- Every call keeps the animator within its set. -/
theorem playsFrom_react (hset : SoundSet animations (some count))
    (h : a.animator.PlaysFrom animations count) (call : ActorCall) :
    (a.react call).animator.PlaysFrom animations count := by
  cases call with
  | animate name reverse timeScale sheet =>
      show (a.started _ sheet).state.animator.PlaysFrom animations count
      rw [(started_eq a _ sheet).1]
      exact (h.animate hset name reverse timeScale).1
  | tick elapsed sheet =>
      show (a.tick elapsed sheet).state.animator.PlaysFrom animations count
      rw [animator_tick]
      exact (h.tick hset elapsed).1
  | stop => exact h.stop
  | reset =>
      refine ⟨h.animations_eq, ?_, ?_⟩
      · intro steps hsteps
        cases hsteps
      · intro frame hframe
        cases hframe
  | moveTo target options => exact h
  | rotateTo target options => exact h
  | cancel => exact h

theorem playsFrom_after (hset : SoundSet animations (some count))
    (h : a.animator.PlaysFrom animations count) (calls : List ActorCall) :
    (a.after calls).animator.PlaysFrom animations count := by
  induction calls generalizing a with
  | nil => exact h
  | cons call rest ih => exact ih (playsFrom_react hset h call)

/-- A call but a reset draws from the source that is there, and makes only permitted draws. -/
theorem leadsTo_react (hset : SoundSet animations (some count))
    (h : a.animator.PlaysFrom animations count) {call : ActorCall} (hcall : call ≠ .reset) :
    a.animator.random.LeadsTo (a.react call).animator.random := by
  have hdrawable := h.drawable hset
  cases call with
  | animate name reverse timeScale sheet =>
      show a.animator.random.LeadsTo (a.started _ sheet).state.animator.random
      rw [(started_eq a _ sheet).1]
      exact (Animator.path_animate hdrawable.named name reverse timeScale).leadsTo hdrawable
        fun _ hsteps => hsteps
  | tick elapsed sheet =>
      show a.animator.random.LeadsTo (a.tick elapsed sheet).state.animator.random
      rw [animator_tick]
      exact (Animator.path_tick (P := fun _ => False) a.animator elapsed).leadsTo hdrawable
        fun _ hfalse => hfalse.elim
  | reset => exact absurd rfl hcall
  | stop => exact .refl _
  | moveTo target options => exact .refl _
  | rotateTo target options => exact .refl _
  | cancel => exact .refl _

/-- All that was drawn since the source was made is permitted. -/
theorem permitted_after (hset : SoundSet animations (some count))
    (h : a.animator.PlaysFrom animations count)
    (hdrawn : ∀ d ∈ a.animator.random.drawn, d.Permitted) (calls : List ActorCall) :
    ∀ d ∈ (a.after calls).animator.random.drawn, d.Permitted := by
  induction calls generalizing a with
  | nil => exact hdrawn
  | cons call rest ih =>
      refine ih (playsFrom_react hset h call) ?_
      by_cases hcall : call = .reset
      · -- the source is made anew
        subst hcall
        exact fun d hd => (nomatch hd)
      · exact (leadsTo_react hset h hcall).permitted hdrawn

/-! ## Assets -/

/-- An asset that was compiled holds a sound set, whose names are those that were authored. -/
theorem sound_of_ofData {data : AssetData} {asset : Asset} (h : Asset.ofData data = .ok asset) :
    SoundSet asset.animations (some asset.frameCount) ∧
      asset.animations.names = data.animations.sortByName.names := by
  obtain ⟨u, -, hcompile⟩ := bind_eq_ok_iff.1 h
  obtain ⟨animations, hset, hreturn⟩ := bind_eq_ok_iff.1 hcompile
  cases hreturn
  exact ⟨sound_of_compileSet hset, Table.names_of_mapM_eq_ok hset⟩

theorem get?_eq_none_of_ofData {data : AssetData} {asset : Asset}
    (h : Asset.ofData data = .ok asset) {name : String} (hnone : asset.animations.get? name = none) :
    data.animations.get? name = none := by
  have hnames := (sound_of_ofData h).2
  have hasset : asset.animations.contains name = false := by
    rw [Table.contains_eq_isSome_get?, hnone]
    rfl
  have hsorted : data.animations.sortByName.contains name = false := by
    rw [← Bool.not_eq_true, Table.contains_iff, ← hnames, ← Table.contains_iff, hasset]
    exact Bool.false_ne_true
  rw [Table.contains_eq_isSome_get?, Table.get?_sortByName] at hsorted
  exact Option.isSome_eq_false_iff.1 hsorted |> Option.isNone_iff_eq_none.1

theorem playsFrom_create (asset : Asset) (node : SpriteNode) (config : Config) (count : Nat) :
    (create asset node config).animator.PlaysFrom asset.animations count := by
  refine ⟨rfl, ?_, ?_⟩
  · intro steps hsteps
    cases hsteps
  · intro frame hframe
    cases hframe

/-- An actor of a compiled asset shows only frames that the asset has; a tick fails only by a cycle
or a time that is not finite; a start fails only by a name that the asset does not define, by a bad
time scale or by a cycle; all that its source has drawn is permitted; and so is every draw of the
call that comes next. -/
theorem safe_of_ofData {data : AssetData} {asset : Asset} (h : Asset.ofData data = .ok asset)
    (node : SpriteNode) (config : Config) (calls : List ActorCall) :
    (∀ frame, ((create asset node config).after calls).animator.playback.frame = some frame →
      frame.toNat < asset.frameCount) ∧
    (∀ elapsed sheet e,
      (((create asset node config).after calls).tick elapsed sheet).result = .error e →
        e = .invalidElapsed elapsed ∨ e.IsCycle) ∧
    (∀ name reverse timeScale sheet e,
      (((create asset node config).after calls).animate name reverse timeScale sheet).result =
          .error e →
        (e = .unknownAnimation name ∧ data.animations.get? name = none) ∨
          (∃ value, e = .invalidTimeScale value) ∨ e.IsCycle) ∧
    (∀ d ∈ ((create asset node config).after calls).animator.random.drawn, d.Permitted) ∧
    ∀ call, call ≠ .reset →
      ((create asset node config).after calls).animator.random.LeadsTo
        (((create asset node config).after calls).react call).animator.random := by
  obtain ⟨hset, -⟩ := sound_of_ofData h
  have hcreate := playsFrom_create asset node config asset.frameCount
  have hplays := playsFrom_after hset hcreate calls
  have hpermitted := permitted_after hset hcreate (fun d hd => (nomatch hd)) calls
  -- from here on it only matters that the animator plays from its set
  generalize (create asset node config).after calls = a at hplays hpermitted
  refine ⟨hplays.frame_lt, ?_, ?_, hpermitted, fun call => leadsTo_react hset hplays⟩
  · intro elapsed sheet e he
    exact (hplays.tick hset elapsed).2 e (a.error_of_tick he)
  · intro name reverse timeScale sheet e he
    have hresult : (a.animator.animate name reverse timeScale).result = .error e :=
      (started_eq a _ sheet).2.symm.trans he
    rcases (hplays.animate hset name reverse timeScale).2 e hresult with
      ⟨hname, hnone⟩ | hscale | hcycle
    · exact Or.inl ⟨hname, get?_eq_none_of_ofData h hnone⟩
    · exact Or.inr (Or.inl ⟨_, hscale⟩)
    · exact Or.inr (Or.inr hcycle)

/-- Steps with a fixed and a drawn duration, a frame that is picked, and a loop. -/
def idleSteps : List AuthoredStep :=
  [.frame 0 (.fixed 2.0), .unique [0, 1] (.range 1 3), .loop]

/-- An asset of two frames with one animation. -/
def idleData : AssetData where
  name := "hero"
  frames := [⟨⟨1, 1⟩, []⟩, ⟨⟨1, 1⟩, []⟩]
  animations := { entries := [("idle", idleSteps)] }

/-- The asset that the data is compiled to. -/
def idleAsset : Asset where
  name := "hero"
  frames := [⟨⟨1, 1⟩, []⟩, ⟨⟨1, 1⟩, []⟩]
  animations := { entries := [("idle", expandSteps idleSteps)] }

theorem ofData_idleData : Asset.ofData idleData = .ok idleAsset := by
  have hsorted : idleData.animations.sortByName = idleData.animations :=
    Table.ext_entries (List.mergeSort_singleton _)
  unfold Asset.ofData compileSet
  rw [hsorted]
  rfl

/-- Ticking past the first frame picks one of the two: an index is drawn, and then a duration. Another
tick draws no less properly. -/
theorem safe_of_idleData :
    ((create idleAsset {} {}).after
        [.animate "idle" false none {}, .tick 300.0 {}]).animator.random.drawn =
      [.range 1 3, .index 2] ∧
    (Draw.range 1 3).Permitted ∧ (Draw.index 2).Permitted ∧
    ((create idleAsset {} {}).after
        [.animate "idle" false none {}, .tick 300.0 {}]).animator.random.LeadsTo
      (((create idleAsset {} {}).after
        [.animate "idle" false none {}, .tick 300.0 {}]).react (.tick 900.0 {})).animator.random := by
  have hdrawn : ((create idleAsset {} {}).after
      [.animate "idle" false none {}, .tick 300.0 {}]).animator.random.drawn =
        [.range 1 3, .index 2] := by decide +kernel
  obtain ⟨-, -, -, hpermitted, hnext⟩ := safe_of_ofData ofData_idleData {} {}
    [.animate "idle" false none {}, .tick 300.0 {}]
  rw [hdrawn] at hpermitted
  exact ⟨hdrawn, hpermitted _ List.mem_cons_self,
    hpermitted _ (List.mem_cons_of_mem _ List.mem_cons_self), hnext (.tick 900.0 {}) nofun⟩

end Actor

end SpriteStage
