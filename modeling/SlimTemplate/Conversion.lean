import SlimTemplate.Markup.Html
import SlimTemplate.Text.Utf8
import SlimTemplate.Writer.Entry

/-!
# Conversion

A format can be read, written, or both. HTML with directives can be read and Slim can be written,
so HTML can be converted to Slim.

## Main definitions

* `Format`: the formats, with `Format.read` and `Format.write`.
* `ConversionError`: what can go wrong.
* `htmlToSlim`, `htmlToSlimUtf8`: from HTML with directives to Slim.
-/

namespace SlimTemplate

/-- The formats of documents. -/
inductive Format where
  | html
  | slim
  deriving DecidableEq, Repr

/-- What can go wrong in a conversion. -/
inductive ConversionError where
  | cannotRead (format : Format)
  | cannotWrite (format : Format)
  | notUtf8 (fault : Text.Utf8Error)
  deriving DecidableEq, Repr

/-- The name of a format. -/
def Format.name : Format → Text
  | html => "html".toList
  | slim => "slim".toList

namespace ConversionError

/-- The wording of an error. -/
def message : ConversionError → Text
  | cannotRead format =>
    "Format '".toList ++ format.name ++ "' does not support parsing".toList
  | cannotWrite format =>
    "Format '".toList ++ format.name ++ "' does not support serialization".toList
  | notUtf8 fault => "source is not valid UTF-8: ".toList ++ fault.message

end ConversionError

namespace Format

/-- Reads a source as a document. -/
def read (format : Format) (source : Text) : Except ConversionError Markup.Document :=
  match format with
  | html => .ok (.ofHtml source)
  | slim => .error (.cannotRead slim)

/-- Writes a document. -/
def write (format : Format) (layout : Layout) (document : Markup.Document) :
    Except ConversionError Text :=
  match format with
  | html => .error (.cannotWrite html)
  | slim => .ok (document.toSlim layout)

end Format

/-- Converts HTML with directives to Slim. -/
def htmlToSlim (layout : Layout) (source : Text) : Text :=
  (Markup.Document.ofHtml source).toSlim layout

/-- Converts the bytes of HTML with directives to Slim. -/
def htmlToSlimUtf8 (layout : Layout) (source : List UInt8) : Except ConversionError Text :=
  match Text.decodeUtf8 source with
  | .ok source => .ok (htmlToSlim layout source)
  | .error fault => .error (.notUtf8 fault)

end SlimTemplate
