/-
The key table of ESTree, revision ES2022. It is used for every type that a caller's own table does
not list.
-/
import SyntaxWalk.Keys.Table

namespace SyntaxWalk

/-- The types of the grammar with their child fields. -/
def estreeKeys : List (String × List String) := [
  ("ArrayExpression", ["elements"]),
  ("ArrayPattern", ["elements"]),
  ("ArrowFunctionExpression", ["params", "body"]),
  ("AssignmentExpression", ["left", "right"]),
  ("AssignmentPattern", ["left", "right"]),
  ("AwaitExpression", ["argument"]),
  ("BinaryExpression", ["left", "right"]),
  ("BlockStatement", ["body"]),
  ("BreakStatement", ["label"]),
  ("CallExpression", ["callee", "arguments"]),
  ("CatchClause", ["param", "body"]),
  ("ChainExpression", ["expression"]),
  ("ClassBody", ["body"]),
  ("ClassDeclaration", ["id", "superClass", "body"]),
  ("ClassExpression", ["id", "superClass", "body"]),
  ("ConditionalExpression", ["test", "consequent", "alternate"]),
  ("ContinueStatement", ["label"]),
  ("DebuggerStatement", []),
  ("DoWhileStatement", ["body", "test"]),
  ("EmptyStatement", []),
  ("ExportAllDeclaration", ["exported", "source"]),
  ("ExportDefaultDeclaration", ["declaration"]),
  ("ExportNamedDeclaration", ["declaration", "specifiers", "source"]),
  ("ExportSpecifier", ["exported", "local"]),
  ("ExpressionStatement", ["expression"]),
  ("ForInStatement", ["left", "right", "body"]),
  ("ForOfStatement", ["left", "right", "body"]),
  ("ForStatement", ["init", "test", "update", "body"]),
  ("FunctionDeclaration", ["id", "params", "body"]),
  ("FunctionExpression", ["id", "params", "body"]),
  ("Identifier", []),
  ("IfStatement", ["test", "consequent", "alternate"]),
  ("ImportDeclaration", ["specifiers", "source"]),
  ("ImportDefaultSpecifier", ["local"]),
  ("ImportExpression", ["source"]),
  ("ImportNamespaceSpecifier", ["local"]),
  ("ImportSpecifier", ["imported", "local"]),
  ("LabeledStatement", ["label", "body"]),
  ("Literal", []),
  ("LogicalExpression", ["left", "right"]),
  ("MemberExpression", ["object", "property"]),
  ("MetaProperty", ["meta", "property"]),
  ("MethodDefinition", ["key", "value"]),
  ("NewExpression", ["callee", "arguments"]),
  ("ObjectExpression", ["properties"]),
  ("ObjectPattern", ["properties"]),
  ("PrivateIdentifier", []),
  ("Program", ["body"]),
  ("Property", ["key", "value"]),
  ("PropertyDefinition", ["key", "value"]),
  ("RestElement", ["argument"]),
  ("ReturnStatement", ["argument"]),
  ("SequenceExpression", ["expressions"]),
  ("SpreadElement", ["argument"]),
  ("StaticBlock", ["body"]),
  ("Super", []),
  ("SwitchCase", ["test", "consequent"]),
  ("SwitchStatement", ["discriminant", "cases"]),
  ("TaggedTemplateExpression", ["tag", "quasi"]),
  ("TemplateElement", []),
  ("TemplateLiteral", ["quasis", "expressions"]),
  ("ThisExpression", []),
  ("ThrowStatement", ["argument"]),
  ("TryStatement", ["block", "handler", "finalizer"]),
  ("UnaryExpression", ["argument"]),
  ("UpdateExpression", ["argument"]),
  ("VariableDeclaration", ["declarations"]),
  ("VariableDeclarator", ["id", "init"]),
  ("WhileStatement", ["test", "body"]),
  ("WithStatement", ["object", "body"]),
  ("YieldExpression", ["argument"])]

/-- The bundled table file. -/
def defaultKeyFile : KeyTableFile := ⟨"estree", "es2022", .ofList estreeKeys⟩

/-- The bundled table. -/
def defaultKeys : KeyTable := defaultKeyFile.keys

end SyntaxWalk
