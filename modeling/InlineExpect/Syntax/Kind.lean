/-!
# Kinds of syntax nodes

The kinds of nodes that a checker reports for a file.  Tokens and trivia are no nodes, and a kind
that is not listed here is `unknown`.
-/

namespace InlineExpect

/-- The kind of a syntax node. -/
inductive SyntaxKind where
  -- Names and literals
  | identifier | privateIdentifier | qualifiedName | computedPropertyName | numericLiteral
  | bigIntLiteral | stringLiteral | regularExpressionLiteral | noSubstitutionTemplateLiteral
  | trueKeyword | falseKeyword | nullKeyword | thisKeyword | superKeyword
  -- Expressions
  | arrayLiteralExpression | objectLiteralExpression | propertyAccessExpression
  | elementAccessExpression | callExpression | newExpression | taggedTemplateExpression
  | typeAssertionExpression | parenthesizedExpression | functionExpression | arrowFunction
  | deleteExpression | typeOfExpression | voidExpression | awaitExpression
  | prefixUnaryExpression | postfixUnaryExpression | binaryExpression | conditionalExpression
  | templateExpression | yieldExpression | spreadElement | classExpression | asExpression
  | nonNullExpression | satisfiesExpression
  -- Statements
  | block | emptyStatement | variableStatement | expressionStatement | ifStatement | doStatement
  | whileStatement | forStatement | forInStatement | forOfStatement | continueStatement
  | breakStatement | returnStatement | withStatement | switchStatement | labeledStatement
  | throwStatement | tryStatement | debuggerStatement
  -- Declarations
  | variableDeclaration | variableDeclarationList | functionDeclaration | classDeclaration
  | interfaceDeclaration | typeAliasDeclaration | enumDeclaration | moduleDeclaration
  | moduleBlock | importEqualsDeclaration | importDeclaration | exportAssignment
  | exportDeclaration | parameter | typeParameter | propertyDeclaration | propertySignature
  | methodDeclaration | methodSignature | propertyAssignment | shorthandPropertyAssignment
  -- Type nodes
  | typeReference | functionType | typeLiteral | arrayType | tupleType | unionType
  | intersectionType | literalType | typeQuery | keywordType
  -- Top level
  | sourceFile | unknown
deriving DecidableEq, Repr, Inhabited

namespace SyntaxKind

/-- The name of a kind. -/
def name : SyntaxKind → String
  | .identifier => "Identifier"
  | .privateIdentifier => "PrivateIdentifier"
  | .qualifiedName => "QualifiedName"
  | .computedPropertyName => "ComputedPropertyName"
  | .numericLiteral => "NumericLiteral"
  | .bigIntLiteral => "BigIntLiteral"
  | .stringLiteral => "StringLiteral"
  | .regularExpressionLiteral => "RegularExpressionLiteral"
  | .noSubstitutionTemplateLiteral => "NoSubstitutionTemplateLiteral"
  | .trueKeyword => "TrueKeyword"
  | .falseKeyword => "FalseKeyword"
  | .nullKeyword => "NullKeyword"
  | .thisKeyword => "ThisKeyword"
  | .superKeyword => "SuperKeyword"
  | .arrayLiteralExpression => "ArrayLiteralExpression"
  | .objectLiteralExpression => "ObjectLiteralExpression"
  | .propertyAccessExpression => "PropertyAccessExpression"
  | .elementAccessExpression => "ElementAccessExpression"
  | .callExpression => "CallExpression"
  | .newExpression => "NewExpression"
  | .taggedTemplateExpression => "TaggedTemplateExpression"
  | .typeAssertionExpression => "TypeAssertionExpression"
  | .parenthesizedExpression => "ParenthesizedExpression"
  | .functionExpression => "FunctionExpression"
  | .arrowFunction => "ArrowFunction"
  | .deleteExpression => "DeleteExpression"
  | .typeOfExpression => "TypeOfExpression"
  | .voidExpression => "VoidExpression"
  | .awaitExpression => "AwaitExpression"
  | .prefixUnaryExpression => "PrefixUnaryExpression"
  | .postfixUnaryExpression => "PostfixUnaryExpression"
  | .binaryExpression => "BinaryExpression"
  | .conditionalExpression => "ConditionalExpression"
  | .templateExpression => "TemplateExpression"
  | .yieldExpression => "YieldExpression"
  | .spreadElement => "SpreadElement"
  | .classExpression => "ClassExpression"
  | .asExpression => "AsExpression"
  | .nonNullExpression => "NonNullExpression"
  | .satisfiesExpression => "SatisfiesExpression"
  | .block => "Block"
  | .emptyStatement => "EmptyStatement"
  | .variableStatement => "VariableStatement"
  | .expressionStatement => "ExpressionStatement"
  | .ifStatement => "IfStatement"
  | .doStatement => "DoStatement"
  | .whileStatement => "WhileStatement"
  | .forStatement => "ForStatement"
  | .forInStatement => "ForInStatement"
  | .forOfStatement => "ForOfStatement"
  | .continueStatement => "ContinueStatement"
  | .breakStatement => "BreakStatement"
  | .returnStatement => "ReturnStatement"
  | .withStatement => "WithStatement"
  | .switchStatement => "SwitchStatement"
  | .labeledStatement => "LabeledStatement"
  | .throwStatement => "ThrowStatement"
  | .tryStatement => "TryStatement"
  | .debuggerStatement => "DebuggerStatement"
  | .variableDeclaration => "VariableDeclaration"
  | .variableDeclarationList => "VariableDeclarationList"
  | .functionDeclaration => "FunctionDeclaration"
  | .classDeclaration => "ClassDeclaration"
  | .interfaceDeclaration => "InterfaceDeclaration"
  | .typeAliasDeclaration => "TypeAliasDeclaration"
  | .enumDeclaration => "EnumDeclaration"
  | .moduleDeclaration => "ModuleDeclaration"
  | .moduleBlock => "ModuleBlock"
  | .importEqualsDeclaration => "ImportEqualsDeclaration"
  | .importDeclaration => "ImportDeclaration"
  | .exportAssignment => "ExportAssignment"
  | .exportDeclaration => "ExportDeclaration"
  | .parameter => "Parameter"
  | .typeParameter => "TypeParameter"
  | .propertyDeclaration => "PropertyDeclaration"
  | .propertySignature => "PropertySignature"
  | .methodDeclaration => "MethodDeclaration"
  | .methodSignature => "MethodSignature"
  | .propertyAssignment => "PropertyAssignment"
  | .shorthandPropertyAssignment => "ShorthandPropertyAssignment"
  | .typeReference => "TypeReference"
  | .functionType => "FunctionType"
  | .typeLiteral => "TypeLiteral"
  | .arrayType => "ArrayType"
  | .tupleType => "TupleType"
  | .unionType => "UnionType"
  | .intersectionType => "IntersectionType"
  | .literalType => "LiteralType"
  | .typeQuery => "TypeQuery"
  | .keywordType => "KeywordType"
  | .sourceFile => "SourceFile"
  | .unknown => "Unknown"

/-- All kinds in the order of their declaration. -/
def all : List SyntaxKind :=
  [.identifier, .privateIdentifier, .qualifiedName, .computedPropertyName, .numericLiteral,
    .bigIntLiteral, .stringLiteral, .regularExpressionLiteral, .noSubstitutionTemplateLiteral,
    .trueKeyword, .falseKeyword, .nullKeyword, .thisKeyword, .superKeyword,
    .arrayLiteralExpression, .objectLiteralExpression, .propertyAccessExpression,
    .elementAccessExpression, .callExpression, .newExpression, .taggedTemplateExpression,
    .typeAssertionExpression, .parenthesizedExpression, .functionExpression, .arrowFunction,
    .deleteExpression, .typeOfExpression, .voidExpression, .awaitExpression,
    .prefixUnaryExpression, .postfixUnaryExpression, .binaryExpression, .conditionalExpression,
    .templateExpression, .yieldExpression, .spreadElement, .classExpression, .asExpression,
    .nonNullExpression, .satisfiesExpression, .block, .emptyStatement, .variableStatement,
    .expressionStatement, .ifStatement, .doStatement, .whileStatement, .forStatement,
    .forInStatement, .forOfStatement, .continueStatement, .breakStatement, .returnStatement,
    .withStatement, .switchStatement, .labeledStatement, .throwStatement, .tryStatement,
    .debuggerStatement, .variableDeclaration, .variableDeclarationList, .functionDeclaration,
    .classDeclaration, .interfaceDeclaration, .typeAliasDeclaration, .enumDeclaration,
    .moduleDeclaration, .moduleBlock, .importEqualsDeclaration, .importDeclaration,
    .exportAssignment, .exportDeclaration, .parameter, .typeParameter, .propertyDeclaration,
    .propertySignature, .methodDeclaration, .methodSignature, .propertyAssignment,
    .shorthandPropertyAssignment, .typeReference, .functionType, .typeLiteral, .arrayType,
    .tupleType, .unionType, .intersectionType, .literalType, .typeQuery, .keywordType,
    .sourceFile, .unknown]

/-- The kind with a name.  Every name that is not listed is the name of an unknown kind. -/
def ofName (name : String) : SyntaxKind := (all.find? fun k => k.name == name).getD .unknown

/-- Whether a node is an expression, names and literals included. -/
def isExpression : SyntaxKind → Bool
  | .identifier | .privateIdentifier | .numericLiteral | .bigIntLiteral | .stringLiteral
  | .regularExpressionLiteral | .noSubstitutionTemplateLiteral | .trueKeyword | .falseKeyword
  | .nullKeyword | .thisKeyword | .superKeyword | .arrayLiteralExpression
  | .objectLiteralExpression | .propertyAccessExpression | .elementAccessExpression
  | .callExpression | .newExpression | .taggedTemplateExpression | .typeAssertionExpression
  | .parenthesizedExpression | .functionExpression | .arrowFunction | .deleteExpression
  | .typeOfExpression | .voidExpression | .awaitExpression | .prefixUnaryExpression
  | .postfixUnaryExpression | .binaryExpression | .conditionalExpression | .templateExpression
  | .yieldExpression | .spreadElement | .classExpression | .asExpression | .nonNullExpression
  | .satisfiesExpression => true
  | _ => false

/-- Whether a node is a statement. -/
def isStatement : SyntaxKind → Bool
  | .block | .emptyStatement | .variableStatement | .expressionStatement | .ifStatement
  | .doStatement | .whileStatement | .forStatement | .forInStatement | .forOfStatement
  | .continueStatement | .breakStatement | .returnStatement | .withStatement | .switchStatement
  | .labeledStatement | .throwStatement | .tryStatement | .debuggerStatement => true
  | _ => false

/-- Whether a node is a type. -/
def isTypeNode : SyntaxKind → Bool
  | .typeReference | .functionType | .typeLiteral | .arrayType | .tupleType | .unionType
  | .intersectionType | .literalType | .typeQuery | .keywordType => true
  | _ => false

/-- The place of a kind in the order of declaration. -/
def index (k : SyntaxKind) : Nat := k.ctorIdx

end SyntaxKind

end InlineExpect
