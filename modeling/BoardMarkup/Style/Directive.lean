/-! The built-in directives: how each is written, rendered, activated and laid out in styles. -/
namespace BoardMarkup.Style

/-- How a template is assembled from fragments when there is none of the directive's own name. -/
inductive Layout where
  | paired
  | list
  | listItem
  | quote
  | attachment
  deriving DecidableEq

inductive Activation where
  | bit (n : Nat)
  | follows (leader : String)
  deriving DecidableEq

/-- A directive. The sources of `aliases` are the tokens that styles write for those of `usage`. -/
structure Directive where
  name : String
  usage : String
  template : String
  aliases : List (String × String) := []
  activation : Activation
  layout : Layout := .paired
  deriving DecidableEq

def applyTemplates : String := "<xsl:apply-templates/>"

/-- All directives, in the order in which they are registered. -/
def catalog : List Directive := [
  { name := "attachment"
    usage :=
      "[ATTACHMENT index=\x7bNUMBER\x7d filename=\x7bTEXT;useContent\x7d]"
    template :=
      "<xsl:comment> ia<xsl:value-of select=\"@index\"/> </xsl:comment>" ++
      "<xsl:value-of select=\"@filename\"/><xsl:comment> ia" ++
      "<xsl:value-of select=\"@index\"/> </xsl:comment>"
    activation := .bit 12
    layout := .attachment },
  { name := "b"
    usage :=
      "[B]\x7bTEXT\x7d[/B]"
    template :=
      "<span style=\"font-weight: bold\"><xsl:apply-templates/></span>"
    activation := .bit 1 },
  { name := "code"
    usage :=
      "[CODE]\x7bTEXT\x7d[/CODE]"
    template :=
      "<div class=\"codebox\"><p>Code:</p><pre><code><xsl:apply-templates/></code></pre>" ++
      "</div>"
    activation := .bit 8 },
  { name := "color"
    usage :=
      "[COLOR=\x7bCOLOR\x7d]\x7bTEXT\x7d[/COLOR]"
    template :=
      "<span style=\"color: \x7bCOLOR\x7d\"><xsl:apply-templates/></span>"
    activation := .bit 6 },
  { name := "email"
    usage :=
      "[EMAIL=\x7bEMAIL;useContent\x7d " ++
      "subject=\x7bTEXT;optional;postFilter=rawurlencode\x7d " ++
      "body=\x7bTEXT;optional;postFilter=rawurlencode\x7d]\x7bTEXT\x7d[/EMAIL]"
    template :=
      "<a><xsl:attribute name=\"href\"><xsl:text>mailto:</xsl:text>" ++
      "<xsl:value-of select=\"@email\"/><xsl:if test=\"@subject or @body\"><xsl:text>?" ++
      "</xsl:text><xsl:if test=\"@subject\">subject=<xsl:value-of select=\"@subject\"/>" ++
      "</xsl:if><xsl:if test=\"@body\"><xsl:if test=\"@subject\">&amp;</xsl:if>body=" ++
      "<xsl:value-of select=\"@body\"/></xsl:if></xsl:if></xsl:attribute>" ++
      "<xsl:apply-templates/></a>"
    aliases := [("\x7bDESCRIPTION\x7d", "\x7bTEXT\x7d")]
    activation := .bit 10 },
  { name := "flash"
    usage :=
      "[FLASH=\x7bNUMBER1\x7d,\x7bNUMBER2\x7d " ++
      "width=\x7bNUMBER1;postFilter=#flashwidth\x7d " ++
      "height=\x7bNUMBER2;postFilter=#flashheight\x7d url=\x7bURL;useContent\x7d /]"
    template :=
      "<object classid=\"clsid:D27CDB6E-AE6D-11CF-96B8-444553540000\"" ++
      " width=\"\x7bNUMBER1\x7d\" height=\"\x7bNUMBER2\x7d\">" ++
      "<param name=\"movie\" value=\"\x7bURL\x7d\"/>" ++
      "<param name=\"play\" value=\"false\"/>" ++
      "<embed src=\"\x7bURL\x7d\" type=\"application/x-shockwave-flash\"" ++
      " width=\"\x7bNUMBER1\x7d\" height=\"\x7bNUMBER2\x7d\" play=\"false\"/>" ++
      "</object>"
    aliases := [("\x7bWIDTH\x7d", "\x7bNUMBER1\x7d"), ("\x7bHEIGHT\x7d", "\x7bNUMBER2\x7d")]
    activation := .bit 11 },
  { name := "i"
    usage :=
      "[I]\x7bTEXT\x7d[/I]"
    template :=
      "<span style=\"font-style: italic\"><xsl:apply-templates/></span>"
    activation := .bit 2 },
  { name := "img"
    usage :=
      "[IMG src=\x7bIMAGEURL;useContent\x7d]"
    template :=
      "<img src=\"\x7bIMAGEURL\x7d\" alt=\"\x7bL_IMAGE\x7d\"/>"
    aliases := [("\x7bURL\x7d", "\x7bIMAGEURL\x7d")]
    activation := .bit 4 },
  { name := "list"
    usage :=
      "[LIST " ++
      "type=\x7bHASHMAP=1:decimal,a:lower-alpha,A:upper-alpha,i:lower-roman,I:upper-roman;" ++
      "optional;postFilter=#simpletext\x7d]\x7bTEXT\x7d[/LIST]"
    template :=
      "<xsl:choose><xsl:when test=\"not(@type)\"><ul><xsl:apply-templates/></ul>" ++
      "</xsl:when><xsl:when test=\"contains('upperlowerdecim',substring(@type,1,5))\">" ++
      "<ol style=\"list-style-type: \x7bHASHMAP\x7d\"><xsl:apply-templates/></ol>" ++
      "</xsl:when><xsl:otherwise><ul style=\"list-style-type: \x7bHASHMAP\x7d\">" ++
      "<xsl:apply-templates/></ul></xsl:otherwise></xsl:choose>"
    aliases := [("\x7bLIST_TYPE\x7d", "\x7bHASHMAP\x7d")]
    activation := .bit 9
    layout := .list },
  { name := "li"
    usage :=
      "[* $tagName=LI]\x7bTEXT\x7d[/*]"
    template :=
      "<li><xsl:apply-templates/></li>"
    activation := .follows "list"
    layout := .listItem },
  { name := "quote"
    usage :=
      "[QUOTE\n\tauthor=\x7bTEXT1;optional\x7d\n\turl=\x7bURL;optional\x7d\n" ++
      "\tauthor=\x7bPARSE=/^\\[url=(?'url'.*?)](?'author'.*)\\[\\/url]$/i\x7d\n" ++
      "\tauthor=\x7bPARSE=/^\\[url](?'author'(?'url'.*?))\\[\\/url]$/i\x7d\n" ++
      "\tauthor=\x7bPARSE=/(?'url'https?:\\/\\/[^[\\]]+)/i\x7d\n]\x7bTEXT2\x7d[/QUOTE]"
    template :=
      "<blockquote><xsl:if test=\"@author\"><cite><xsl:value-of select=\"@author\"/> " ++
      "wrote:</cite></xsl:if><div><xsl:apply-templates/></div></blockquote>"
    aliases := [("\x7bUSERNAME\x7d", "\x7bTEXT1\x7d")]
    activation := .bit 0
    layout := .quote },
  { name := "size"
    usage :=
      "[SIZE=\x7bFONTSIZE\x7d]\x7bTEXT\x7d[/SIZE]"
    template :=
      "<span style=\"font-size: \x7bFONTSIZE\x7d%; line-height: normal\">" ++
      "<xsl:apply-templates/></span>"
    aliases := [("\x7bSIZE\x7d", "\x7bFONTSIZE\x7d")]
    activation := .bit 5 },
  { name := "u"
    usage :=
      "[U]\x7bTEXT\x7d[/U]"
    template :=
      "<span style=\"text-decoration: underline\"><xsl:apply-templates/></span>"
    activation := .bit 7 },
  { name := "url"
    usage :=
      "[URL=\x7bURL;useContent\x7d]\x7bTEXT\x7d[/URL]"
    template :=
      "<a href=\"\x7bURL\x7d\" class=\"postlink\"><xsl:apply-templates/></a>"
    aliases := [("\x7bDESCRIPTION\x7d", "\x7bTEXT\x7d")]
    activation := .bit 3 }]

def Directive.find? (name : String) : Option Directive := catalog.find? (·.name == name)

end BoardMarkup.Style
