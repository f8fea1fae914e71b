import HtmlMarkdown.Element

/-!
# Block context

While a page is written, two things are known about the place reached: the container that was opened
last and the block inside it.  There is no stack: a container that opens replaces the one before it,
and a container that closes leaves none.
-/

namespace HtmlMarkdown

/-- A block that holds blocks. -/
inductive Container where
  | bulletList
  | numberedList
  | quotation
  | preformatted
  deriving DecidableEq, Repr

/-- A block that holds text. -/
inductive Leaf where
  | paragraph
  | heading
  | item
  deriving DecidableEq, Repr

namespace Element

/-- The container that an element opens. -/
def container? : Element → Option Container
  | bulletList => some .bulletList
  | numberedList => some .numberedList
  | quotation => some .quotation
  | preformatted => some .preformatted
  | _ => none

/-- The text block that an element opens. -/
def leaf? : Element → Option Leaf
  | paragraph => some .paragraph
  | heading _ => some .heading
  | item => some .item
  | _ => none

end Element

/-- The blocks around the place reached. -/
structure Context where
  /-- The container opened last, unless a container has been closed since. -/
  container : Option Container
  /-- The text block opened last, unless a block has been opened or closed since. -/
  leaf : Option Leaf
  deriving DecidableEq, Repr

namespace Context

/-- The context of the start of a page. -/
def start : Context := ⟨none, none⟩

/-- Opens a container, or leaves all containers. -/
def enter (_ : Context) (c : Option Container) : Context := ⟨c, none⟩

/-- Opens a text block, or leaves it. -/
def enterLeaf (ctx : Context) (l : Option Leaf) : Context := { ctx with leaf := l }

/-- Opens the block of an element. -/
def openBlock (ctx : Context) (e : Element) : Context :=
  match e.container? with
  | some c => ctx.enter (some c)
  | none => ctx.enterLeaf e.leaf?

/-- Closes a block, which may be a container. -/
def close (ctx : Context) (container : Bool) : Context :=
  if container then ⟨none, none⟩ else { ctx with leaf := none }

/-- Whether the place reached lies in a quotation. -/
def inQuotation (ctx : Context) : Bool := ctx.container == some .quotation

theorem inQuotation_enter (ctx : Context) (c : Option Container) :
    (ctx.enter c).inQuotation = (c == some .quotation) := rfl

@[simp] theorem inQuotation_enterLeaf (ctx : Context) (l : Option Leaf) :
    (ctx.enterLeaf l).inQuotation = ctx.inQuotation := rfl

@[simp] theorem inQuotation_close_container (ctx : Context) :
    (ctx.close true).inQuotation = false := rfl

@[simp] theorem inQuotation_close_leaf (ctx : Context) :
    (ctx.close false).inQuotation = ctx.inQuotation := rfl

end Context

end HtmlMarkdown
