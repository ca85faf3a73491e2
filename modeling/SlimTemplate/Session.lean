import SlimTemplate.Conversion
import SlimTemplate.Line.Tree
import SlimTemplate.Settings.Basic
import SlimTemplate.Validation.Basic

/-!
# Tools and sessions

All tools with one set of settings, and a session in which a text is handed from tool to tool.

## Main definitions

* `Tools`: the tools under settings.
* `ExtractionRequest`: which part of a source is extracted.
* `Session`: tools and a text.
* `Session.run`: one command in a session.
-/

namespace SlimTemplate

/-- Which part of a source is extracted. -/
inductive ExtractionRequest where
  | outline (depth : Nat)
  | selector (text : Text)
  /-- The blocks kept or removed by name. -/
  | sections (keep remove : List Text)
  deriving DecidableEq, Repr

/-- Options with a request. -/
def ExtractionRequest.apply (request : ExtractionRequest) (options : ExtractionOptions) :
    ExtractionOptions :=
  match request with
  | outline depth => { options with outline := some depth }
  | selector text => { options with selector := some text }
  | sections keep remove => { options with keep, remove }

/-- The tools under settings. -/
structure Tools where
  settings : Settings
  deriving DecidableEq, Repr

namespace Tools

/-- The tools under the built-in settings. -/
def standard : Tools :=
  ⟨.builtIn⟩

/-- Converts HTML with directives to Slim. -/
def convert (t : Tools) (source : Text) : Text :=
  htmlToSlim t.settings.convert source

/-- The report for a source. -/
def validate (t : Tools) (source : Text) : Report :=
  SlimTemplate.validate t.settings.validationOptions source

/-- Extracts a part of a source. -/
def extract (t : Tools) (request : ExtractionRequest) (source : Text) :
    Except ExtractionError Extraction.Extract :=
  SlimTemplate.extract (request.apply t.settings.extractionOptions) source

/-- Repairs a source. -/
def repair (t : Tools) (source : Text) : Repair.Result :=
  SlimTemplate.repair t.settings.repairOptions source

/-- The tree of a source. -/
def parse (t : Tools) (source : Text) : LineTree :=
  .ofSource t.settings.parse source

end Tools

/-- Tools and a text. -/
structure Session where
  tools : Tools
  text : Text

/-- What can be done in a session. -/
inductive Command where
  | convert
  | validate
  /-- Extracts a part of the text. -/
  | extract (request : ExtractionRequest)
  | repair
  /-- Reads the text as a tree of lines. -/
  | parse
  | append (text : Text)
  /-- Starts over with the settings of the given layers and values. -/
  | configure (layers : List Settings.Layer) (overrides : List (Text × Settings.Value))

/-- What a command gives. -/
inductive Reply where
  | silent
  | report (report : Report)
  /-- An extraction or why it failed. -/
  | extraction (result : Except ExtractionError Extraction.Extract)
  | repair (result : Repair.Result)
  /-- The tree of lines, to be written with the given layout. -/
  | tree (layout : Layout) (tree : LineTree)
  /-- The new settings or why there are none. -/
  | settings (result : Except SettingsError Settings)

namespace Session

/-- One command in a session. A command that fails, and a repair that is only to be looked at,
leave the text as it is. -/
def run (s : Session) : Command → Reply × Session
  | .convert => (.silent, { s with text := s.tools.convert s.text })
  | .validate => (.report (s.tools.validate s.text), s)
  | .extract request =>
    match s.tools.extract request s.text with
    | .ok part => (.extraction (.ok part), { s with text := part.content })
    | .error e => (.extraction (.error e), s)
  | .repair =>
    let result := s.tools.repair s.text
    (.repair result, if result.isPreview then s else { s with text := result.content })
  | .parse => (.tree s.tools.settings.parse (s.tools.parse s.text), s)
  | .append text => (.silent, { s with text := s.text ++ text })
  | .configure layers overrides =>
    match Settings.load layers overrides with
    | .ok settings => (.settings (.ok settings), { s with tools := ⟨settings⟩ })
    | .error e => (.settings (.error e), s)

/-- Commands in order, with what each gives and the text after it. -/
def runAll (s : Session) : List Command → List (Reply × Text)
  | [] => []
  | command :: rest =>
    let (reply, s) := s.run command
    (reply, s.text) :: s.runAll rest

end Session

end SlimTemplate
