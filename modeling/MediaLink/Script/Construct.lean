import MediaLink.Binary64
import MediaLink.Tree

namespace MediaLink.Script

/-- The constructs of source text beside those that linking knows, with their parts:
* `array`, `sequence`: the items; `spread`, `rest`, `paren`, `chain`, `await`, `unary`, `assertion`,
  `spreadAttribute`, `spreadChild`: what they apply to
* `tagged`: the tag and the template
* `targetProperty`: the key and the target, in a pattern
* `index`: the object and the index; `binary`, `assign`: both sides
* `conditional`: the test and the branches
* `arrow`, `function`: the parameters and the body; `withDefault`: the target and the default
* `element`: the opening element and the children; `fragment`: the children
* `expression`, `exported`, `exportedDefault`: what they hold; `return`, `yield`: the value, if any
* `declaration`: its declarators; `declarator`: the target and the initial value, if any
* `block`, `body`: the statements, those of a function in `body`; `labeled`: the statement
* `if`: the test, the branch and the alternative, if any

Comments in front of a statement, but for a directive, are its first parts; those at the end of a
program stand by themselves. -/
inductive Construct where
  | this
  | null
  | boolean (b : Bool)
  | number (value : Binary64)
  | array
  | hole
  | spread
  | paren
  | chain
  | index (isOptional : Bool)
  | unary (operator : String)
  | assertion (type : String)
  | await
  | binary (operator : String)
  | assign (operator : String)
  | conditional
  | sequence
  | arrow (isAsync : Bool)
  | function (name : Option String) (isAsync isGenerator : Bool)
  | yield (delegate : Bool)
  | withDefault
  | objectPattern
  | targetProperty (isComputed : Bool)
  | arrayPattern
  | rest
  | element
  | fragment
  | elementText (raw : String)
  | emptyContainer
  | spreadAttribute
  | spreadChild
  | tagged
  | comment (raw : String) (isBelow endsLine : Bool)
  | directive (raw : String)
  | expression
  | empty
  | return
  | block
  | body
  | labeled (name : String)
  | if
  | class (name : Option String)
  | declaration (keyword : String)
  | declarator
  | exported
  | exportedDefault
  | import (default : Option String) (space : Option String)
      (named : Option (List (String × String))) (source : String)
deriving DecidableEq

abbrev Node := Tree Construct

def node (c : Construct) (parts : List Node) : Node := .node (.other c) parts

def isComment : Node → Bool
  | .node (.other (.comment _ _ _)) _ => true
  | _ => false

end MediaLink.Script
