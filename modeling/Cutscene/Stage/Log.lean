import Cutscene.Json
import Cutscene.Stage.Host

namespace Cutscene

namespace Json

def vec (v : Vec) : Json := .array [.single v.x, .single v.y]

def byte (n : UInt8) : Json := .nat n.toNat

def color (c : Color) : Json :=
  .object [("r", byte c.r), ("g", byte c.g), ("b", byte c.b), ("a", byte c.a)]

def optional (s : Option String) : Json := (s.map string).getD .null

def params (p : DrawParams) : Json :=
  .object
    [("position", vec p.position), ("size", vec p.size), ("rotation", nat p.rotation.units.toNat),
      ("origin", vec p.origin), ("scale", vec p.scale), ("effects", string p.effects.name),
      ("tint", color p.tint), ("layer_depth", single p.layerDepth)]

end Json

namespace Event

open Json

def kind : Event → String
  | .loadSound .. => "load_sound"
  | .unloadSound .. => "unload_sound"
  | .playSound .. => "play_sound"
  | .playIndependentSound .. => "play_independent_sound"
  | .resumeSound .. => "resume_sound"
  | .pauseSound .. => "pause_sound"
  | .stopSound .. => "stop_sound"
  | .seekSound .. => "seek_sound"
  | .soundVolume .. => "sound_volume"
  | .buttonDown .. => "button_down"
  | .buttonUp .. => "button_up"
  | .pushButton .. => "push_button"
  | .blockInput .. => "block_input"
  | .blockAllInputs .. => "block_all_inputs"
  | .buttonPressed .. => "button_pressed"
  | .loadImage .. => "load_image"
  | .solidColor .. => "solid_color"
  | .spriteGroup .. => "sprite_group"
  | .draw .. => "draw"
  | .exitGame => "exit_game"
  | .changeScene .. => "change_scene"
  | .changeSize .. => "change_size"
  | .changeResolution .. => "change_resolution"
  | .fullscreen .. => "fullscreen"
  | .forceResizeResolution .. => "force_resize_resolution"
  | .windowTitle .. => "window_title"
  | .custom .. => "custom"
  | .signal .. => "signal"

def fields : Event → List (String × Json)
  | .loadSound name path loopPath =>
      [("name", string name), ("path", string path), ("loop_path", optional loopPath)]
  | .unloadSound name | .resumeSound name | .pauseSound name | .stopSound name | .custom name =>
      [("name", string name)]
  | .playSound name volume unloadOnFinish =>
      [("name", string name), ("volume", single volume), ("unload_on_finish", bool unloadOnFinish)]
  | .playIndependentSound label path loopPath volume =>
      [("prefix", string label), ("path", string path), ("loop_path", optional loopPath),
        ("volume", single volume)]
  | .seekSound name millis => [("name", string name), ("millis", nat millis.toNat)]
  | .soundVolume name volume => [("name", string name), ("volume", single volume)]
  | .buttonDown button | .buttonUp button | .pushButton button | .buttonPressed button =>
      [("button", string button)]
  | .blockInput button blocked => [("button", string button), ("blocked", bool blocked)]
  | .blockAllInputs blocked => [("blocked", bool blocked)]
  | .loadImage path => [("path", string path)]
  | .solidColor c size => [("color", color c), ("size", vec size)]
  | .spriteGroup visual group => [("visual", string visual), ("group", string group)]
  | .draw visual p => [("visual", string visual), ("params", params p)]
  | .exitGame => []
  | .changeScene scene anew => [("scene", string scene), ("initialize", bool anew)]
  | .changeSize width height => [("width", int width.toInt), ("height", int height.toInt)]
  | .changeResolution width height windowToo =>
      [("width", int width.toInt), ("height", int height.toInt), ("change_size", bool windowToo)]
  | .fullscreen enabled | .forceResizeResolution enabled => [("enabled", bool enabled)]
  | .windowTitle title => [("title", string title)]
  | .signal group => [("group", string group)]

def toJson (e : Event) : Json := .object (("kind", .string e.kind) :: e.fields)

end Event

end Cutscene
