import SpriteStage.Proofs.Actor.Sound
import SpriteStage.Proofs.Animator.Transcript
import SpriteStage.Proofs.Single.Magnitude

/-!
# The node follows the animator

Whatever is asked of an actor, its node shows the frame of the animator with the texture that the
sheet has for it, looks the way that is played, and keeps the size of its scale
(`presents_obeyAll`).

An actor learns of a frame from the signals of a call: it writes the texture where there is a frame
among them, and reads the frame off the state. So the invariant rests on what the signals tell of
the state. After a tick and after a start, the frame of the animator is the one that was signalled
last (`Animator.frame_tick`, `Animator.Begins`); where none was, it is the one that the node shows
already. A tick that fails may have shown frames, and these are signalled too; a start that fails
has shown none, which is why the actor need not look at its signals.
-/

set_option autoImplicit false

namespace SpriteStage

/-- What can be asked of an actor that is shown with one sheet. -/
inductive ActorCommand where
  /-- To start a named animation. -/
  | animate (name : String) (reverse : Bool) (timeScale : Option Float32)
  /-- To compile and start authored steps. -/
  | animateManual (steps : List AuthoredStep) (reverse : Bool) (timeScale : Option Float32)
  /-- To show a frame and end the animation. -/
  | showFrame (frame : UInt64)
  /-- To end the animation. -/
  | stop
  /-- To let time pass. -/
  | tick (elapsed : Float32)
  /-- To start a motion of the position. -/
  | moveTo (target : Point Coordinate) (options : MoveOptions)
  /-- To start a rotation. -/
  | rotateTo (target : Float32) (options : MoveOptions)
  /-- To stop the motions. -/
  | cancel
  /-- To go back to the start. -/
  | reset

/-- The texture of the node is the one that the sheet has under a key. -/
structure SpriteNode.Shows (node : SpriteNode) (key : String) (sheet : FrameSheet) : Prop where
  /-- The node knows the key. -/
  textureKey_eq : node.textureKey = some key
  /-- The node has what the sheet has, which may be nothing. -/
  texture_eq : node.texture = sheet.texture? key

/-! ## Animators -/

namespace Animator

variable {a : Animator}

theorem mirrored_resolveWithin (a : Animator) (leftover : Float32) (budget : Nat) :
    (a.resolveWithin leftover budget).state.playback.mirrored = a.playback.mirrored := by
  refine resolveWithin_induct (P := fun b => b.playback.mirrored = a.playback.mirrored)
    ?_ ?_ ?_ ?_ rfl
  · exact fun _ _ _ hb => hb
  · exact fun _ _ _ hb => hb
  · exact fun _ hb => hb
  · exact fun _ _ _ hb _ => hb

/-- Time starts nothing: what plays after a tick has played before, and the sprite looks the same
way. -/
theorem playing_tick {elapsed : Float32} (h : (a.tick elapsed).state.playback.playing = true) :
    a.playback.playing = true ∧ (a.tick elapsed).state.playback.mirrored = a.playback.mirrored := by
  rcases a.tick_cases elapsed with heq | ⟨-, heq⟩ | ⟨hplaying, heq⟩
  · rw [heq] at h ⊢
    exact ⟨h, rfl⟩
  · rw [heq] at h ⊢
    exact ⟨h, rfl⟩
  · refine ⟨hplaying, ?_⟩
    rw [heq]
    refine advanceWithin_induct (P := fun b => b.playback.mirrored = a.playback.mirrored)
      (fun _ hb => hb) (fun _ hb => hb) ?_ rfl
    intro b hb _
    exact (mirrored_resolveWithin b.advanced _ _).trans hb

end Animator

theorem Playback.exists_parts_flip (p : Playback) : ∃ s, Single.parts p.flip = Single.unit s := by
  unfold Playback.flip
  cases p.mirrored with
  | false => exact ⟨.positive, Single.parts_one⟩
  | true => exact ⟨.negative, Single.parts_neg_one⟩

namespace Actor

/-- The actor after a command, whether the command succeeds or fails. -/
def obey (a : Actor) (sheet : FrameSheet) : ActorCommand → Actor
  | .animate name reverse timeScale => (a.animate name reverse timeScale sheet).state
  | .animateManual steps reverse timeScale => (a.animateManual steps reverse timeScale sheet).state
  | .showFrame frame => (a.showFrame frame sheet).state
  | .stop => a.stop
  | .tick elapsed => (a.tick elapsed sheet).state
  | .moveTo target options => (a.moveTo target options).state
  | .rotateTo target options => (a.rotateTo target options).state
  | .cancel => a.cancel
  | .reset => a.reset

/-- The actor after commands. -/
def obeyAll (a : Actor) (sheet : FrameSheet) (commands : List ActorCommand) : Actor :=
  commands.foldl (fun a command => a.obey sheet command) a

/-! ## What the node shows -/

/-- The node of an actor that was made with an asset and a scale, whichever way it looks. -/
structure Framed (asset : Asset) (sheet : FrameSheet) (scale : Point Float32) (a : Actor) :
    Prop where
  /-- The actor keeps its asset. -/
  asset_eq : a.asset = asset
  /-- The node shows the frame of the animator. -/
  shows_frame : ∀ frame, a.animator.playback.frame = some frame →
    a.node.Shows (asset.frameKey frame.toNat) sheet
  /-- The horizontal scale keeps its magnitude. -/
  magnitude_eq : a.node.scale.x.abs = scale.x.abs
  /-- The vertical scale stays. -/
  height_eq : a.node.scale.y = scale.y

/-- The node of an actor that was made with an asset and a scale. -/
structure Presents (asset : Asset) (sheet : FrameSheet) (scale : Point Float32) (a : Actor) : Prop
    extends Framed asset sheet scale a where
  /-- A sprite whose animation is playing looks the way that is played. -/
  facing_eq : a.isPlaying = true → a.node.scale.x = scale.x.abs * a.animator.playback.flip

variable {a : Actor} {asset : Asset} {sheet : FrameSheet} {scale : Point Float32}

/-- An idle actor may look either way. -/
theorem Framed.presents_of_idle (h : a.Framed asset sheet scale) (hidle : a.isPlaying = false) :
    a.Presents asset sheet scale := by
  refine ⟨h, ?_⟩
  intro hplaying
  rw [hidle] at hplaying
  cases hplaying

theorem shows_withTexture (node : SpriteNode) (key : String) (sheet : FrameSheet) :
    (node.withTexture key (sheet.texture? key)).Shows key sheet := ⟨rfl, rfl⟩

/-- The node takes a texture where a frame was shown and is on screen, and stays otherwise. -/
theorem follow_cases {α : Type} (a : Actor) (o : Outcome Animator α) (sheet : FrameSheet) :
    (a.follow o sheet).state = { a with animator := o.state } ∧
        (o.signals.any Signal.isFrame = false ∨ o.state.playback.frame = none) ∨
      ∃ frame, (a.follow o sheet).state =
          ({ a with animator := o.state } : Actor).textured frame sheet ∧
        o.state.playback.frame = some frame := by
  unfold follow
  cases o.signals.any Signal.isFrame with
  | false => exact Or.inl ⟨rfl, Or.inl rfl⟩
  | true =>
      cases o.state.playback.frame with
      | none => exact Or.inl ⟨rfl, Or.inr rfl⟩
      | some frame => exact Or.inr ⟨frame, rfl, rfl⟩

theorem scale_follow {α : Type} (a : Actor) (o : Outcome Animator α) (sheet : FrameSheet) :
    (a.follow o sheet).state.node.scale = a.node.scale := by
  rcases a.follow_cases o sheet with ⟨heq, -⟩ | ⟨frame, heq, -⟩
  · rw [heq]
  · rw [heq]
    rfl

/-- If the frame of an animator is the one that it signalled last, the node that follows it shows
that frame. -/
theorem Framed.follow {α : Type} (h : a.Framed asset sheet scale) {o : Outcome Animator α}
    (hframe : o.state.playback.frame = (lastFrame o.signals).or a.animator.playback.frame) :
    (a.follow o sheet).state.Framed asset sheet scale := by
  rcases a.follow_cases o sheet with ⟨heq, hstays⟩ | ⟨shown, heq, hshown⟩
  · rw [heq]
    refine ⟨h.asset_eq, ?_, h.magnitude_eq, h.height_eq⟩
    intro frame hsome
    rcases hstays with hquiet | hnone
    · -- no frame was signalled, so it is the one from before, and so is the node
      rw [lastFrame_eq_none_iff.2 hquiet, Option.none_or] at hframe
      exact h.shows_frame frame (hframe.symm.trans hsome)
    · cases hnone.symm.trans hsome
  · rw [heq]
    refine ⟨h.asset_eq, ?_, h.magnitude_eq, h.height_eq⟩
    intro frame hsome
    cases hshown.symm.trans hsome
    rw [← h.asset_eq]
    exact shows_withTexture a.node _ sheet

/-! ## Commands -/

/-- Turning the sprite keeps the magnitude of its scale. -/
theorem Framed.turned (h : a.Framed asset sheet scale) (p : Playback) :
    ({ a with node := a.node.facing p.flip } : Actor).Framed asset sheet scale := by
  refine ⟨h.asset_eq, fun frame hframe => ?_, ?_, h.height_eq⟩
  · obtain ⟨hkey, htexture⟩ := h.shows_frame frame hframe
    exact ⟨hkey, htexture⟩
  · obtain ⟨s, hunit⟩ := p.exists_parts_flip
    calc (a.node.scale.x.abs * p.flip).abs
        = a.node.scale.x.abs.abs := Single.abs_mul_unit _ hunit
      _ = a.node.scale.x.abs := Single.abs_abs _
      _ = scale.x.abs := h.magnitude_eq

/-- A sprite that starts to play is turned before its first frame is shown; if it does not start, it
keeps the frame that it shows. -/
theorem Presents.started (h : a.Presents asset sheet scale) {o : Outcome Animator Unit}
    (hbegins : a.animator.Begins o) : (a.started o sheet).state.Presents asset sheet scale := by
  unfold Actor.started
  cases hresult : o.result with
  | error cause =>
      obtain ⟨hquiet, hidle⟩ := hbegins.of_error cause hresult
      have hframe : o.state.playback.frame = a.animator.playback.frame := by
        rw [hbegins.frame_eq, hquiet, Option.none_or]
      refine Framed.presents_of_idle ⟨h.asset_eq, ?_, h.magnitude_eq, h.height_eq⟩ hidle
      intro frame hsome
      exact h.shows_frame frame (hframe.symm.trans hsome)
  | ok u =>
      refine ⟨(h.toFramed.turned o.state.playback).follow hbegins.frame_eq, ?_⟩
      intro _
      rw [scale_follow, animator_follow, ← h.magnitude_eq]
      rfl

/-- Motions write neither the scale nor the texture. -/
theorem Presents.moved {o : Outcome Actor Bool} (h : o.state.Presents asset sheet scale)
    (elapsed : Float32) : (moved o elapsed).state.Presents asset sheet scale := by
  refine ⟨⟨h.asset_eq, fun frame hframe => ?_, h.magnitude_eq, h.height_eq⟩, h.facing_eq⟩
  obtain ⟨hkey, htexture⟩ := h.shows_frame frame hframe
  exact ⟨hkey, htexture⟩

theorem Presents.tick (h : a.Presents asset sheet scale) (elapsed : Float32) :
    (a.tick elapsed sheet).state.Presents asset sheet scale := by
  unfold Actor.tick
  by_cases hinvalid : elapsed.isFinite = false
  · rw [if_pos hinvalid]
    exact h
  · rw [if_neg hinvalid]
    refine Presents.moved ⟨h.toFramed.follow (a.animator.frame_tick elapsed), ?_⟩ elapsed
    intro hplaying
    rw [isPlaying, animator_follow] at hplaying
    obtain ⟨hbefore, hmirrored⟩ := Animator.playing_tick hplaying
    rw [scale_follow, animator_follow, Playback.flip, hmirrored]
    exact h.facing_eq hbefore

/-- Every command keeps the node in step with the animator. -/
theorem Presents.obey (h : a.Presents asset sheet scale) (command : ActorCommand) :
    (a.obey sheet command).Presents asset sheet scale := by
  cases command with
  | animate name reverse timeScale => exact h.started (a.animator.begins_animate _ _ _)
  | animateManual steps reverse timeScale => exact h.started (a.animator.begins_animateManual _ _ _)
  | showFrame frame =>
      refine Framed.presents_of_idle ⟨h.asset_eq, ?_, h.magnitude_eq, h.height_eq⟩ rfl
      intro shown hshown
      cases hshown
      rw [← h.asset_eq]
      exact shows_withTexture a.node _ sheet
  | stop =>
      exact Framed.presents_of_idle ⟨h.asset_eq, h.shows_frame, h.magnitude_eq, h.height_eq⟩ rfl
  | tick elapsed => exact h.tick elapsed
  | moveTo target options =>
      exact ⟨⟨h.asset_eq, h.shows_frame, h.magnitude_eq, h.height_eq⟩, h.facing_eq⟩
  | rotateTo target options =>
      exact ⟨⟨h.asset_eq, h.shows_frame, h.magnitude_eq, h.height_eq⟩, h.facing_eq⟩
  | cancel => exact ⟨⟨h.asset_eq, h.shows_frame, h.magnitude_eq, h.height_eq⟩, h.facing_eq⟩
  | reset =>
      -- no frame is on screen any more, though the node still has its texture
      refine Framed.presents_of_idle ⟨h.asset_eq, ?_, h.magnitude_eq, h.height_eq⟩ rfl
      intro frame hframe
      cases hframe

theorem Presents.obeyAll (h : a.Presents asset sheet scale) (commands : List ActorCommand) :
    (a.obeyAll sheet commands).Presents asset sheet scale := by
  induction commands generalizing a with
  | nil => exact h
  | cons command rest ih => exact ih (h.obey command)

/-- Whatever is asked of an actor, and whether it succeeds or fails: the node shows the frame of the
animator, looks the way that is played, and keeps the size of its scale. -/
theorem presents_obeyAll (asset : Asset) (node : SpriteNode) (config : Config) (sheet : FrameSheet)
    (commands : List ActorCommand) :
    ((create asset node config).obeyAll sheet commands).Presents asset sheet node.scale := by
  have hframed : (create asset node config).Framed asset sheet node.scale := by
    refine ⟨rfl, ?_, rfl, rfl⟩
    intro frame hframe
    cases hframe
  exact (hframed.presents_of_idle rfl).obeyAll commands

end Actor

end SpriteStage
