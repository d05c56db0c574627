import BoardMarkup.Style.Directive
import BoardMarkup.Style.Fragment
import BoardMarkup.Text.Replacements

/-! Directive templates put together from a style's fragments. -/
namespace BoardMarkup.Style

open Text

namespace Fragments

def wrap? (fs : Fragments) (opening closing : String) : Option String := do
  pure ((← fs.get? opening) ++ applyTemplates ++ (← fs.get? closing))

/--
Unordered without a type, ordered for the types of letters and decimals, otherwise unordered with a
marker.
-/
def list? (fs : Fragments) : Option String := do
  let plain ← fs.wrap? "ulist_open_default" "ulist_close"
  let ordered ← fs.wrap? "olist_open" "olist_close"
  let marked ← fs.wrap? "ulist_open" "ulist_close"
  pure ("<xsl:choose><xsl:when test=\"not(@type)\">" ++ plain ++
    "</xsl:when><xsl:when test=\"contains('upperlowerdecim',substring(@type,1,5))\">" ++ ordered ++
    "</xsl:when><xsl:otherwise>" ++ marked ++ "</xsl:otherwise></xsl:choose>")

def substitute (source target : String) (s : String) : String :=
  (Replacements.ofList [(source, target)]).apply s

/-- The user name, linked by the style's `url` fragment where there is an address. -/
def author (url : String) : String :=
  "<xsl:choose><xsl:when test=\"@url\">" ++
    substitute "\x7bDESCRIPTION\x7d" "\x7bUSERNAME\x7d" url ++
    "</xsl:when><xsl:otherwise>\x7bUSERNAME\x7d</xsl:otherwise></xsl:choose>"

/-- A header with the author's name where there is one, the plain header otherwise. -/
def quote? (fs : Fragments) : Option String := do
  let plain ← fs.get? "quote_open"
  let closing ← fs.get? "quote_close"
  let named ← fs.get? "quote_username_open"
  let named := match fs.get? "url" with
    | some url => substitute "\x7bUSERNAME\x7d" (author url) named
    | none => named
  pure ("<xsl:choose><xsl:when test=\"@author\">" ++ named ++ applyTemplates ++ closing ++
    "</xsl:when><xsl:otherwise>" ++ plain ++ applyTemplates ++ closing ++
    "</xsl:otherwise></xsl:choose>")

/-- Comments of the attachment's index around its file name. -/
def attachment? (fs : Fragments) : Option String := do
  let opening ← fs.get? "inline_attachment_open"
  let closing ← fs.get? "inline_attachment_close"
  let sentinel := "<xsl:comment> ia<xsl:value-of select=\"@index\"/> </xsl:comment>"
  pure (opening ++ sentinel ++ "<xsl:value-of select=\"@filename\"/>" ++ sentinel ++ closing)

def compose? (fs : Fragments) : Layout → Option String
  | .paired => none
  | .list => fs.list?
  | .listItem => fs.wrap? "listitem" "listitem_close"
  | .quote => fs.quote?
  | .attachment => fs.attachment?

/-- A fragment of the directive's name, else its layout, else an opening and a closing fragment. -/
def layOut? (fs : Fragments) (d : Directive) : Option String :=
  ((fs.get? d.name).or (fs.compose? d.layout)).or
    (fs.wrap? (d.name ++ "_open") (d.name ++ "_close"))

def template? (fs : Fragments) (d : Directive) : Option String :=
  (fs.layOut? d).map (Replacements.ofList d.aliases).apply

def recompose (fs : Fragments) : Table String :=
  .ofList (catalog.filterMap fun d => (fs.template? d).map fun t => (d.name, t))

end Fragments
end BoardMarkup.Style
