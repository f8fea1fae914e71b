/-!
# The tag probe

`containsTags` says whether there is anything in a text that looks like a tag, a comment or another
declaration.  It does not read the text as a page: a tag is `<` or `</`, a letter and a `>` with no
bracket in between, and a declaration is `<!` and a `>` with no bracket in between.
-/

namespace HtmlMarkdown

/-- Whether the first bracket of a text is a `>`. -/
def closesFirst (s : List Char) : Bool := s.find? (fun c => c == '<' || c == '>') == some '>'

/-- Whether a text goes on like a tag or a declaration behind its `<`. -/
def looksLikeTag : List Char → Bool
  | '!' :: s => closesFirst s
  | '/' :: c :: s => c.isAlpha && closesFirst s
  | c :: s => c.isAlpha && closesFirst s
  | [] => false

/-- Whether there is anything in a text that looks like a tag. -/
def containsTags : List Char → Bool
  | [] => false
  | c :: s => (c == '<' && looksLikeTag s) || containsTags s

end HtmlMarkdown
