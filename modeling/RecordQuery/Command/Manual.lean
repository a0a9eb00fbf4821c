/-!
The manual: an overview and one chapter for each topic. A topic has several names; letter case does not matter in
them, and a hyphen is as good as an underscore.
-/
namespace RecordQuery.Command

inductive Topic where
  | filter
  | operators
  | types
  | relations
  | orderBy
  | paging
  | schema
deriving DecidableEq, Repr

/-- A text of whole lines. -/
def ofLines (lines : List String) : String :=
  String.join (lines.map fun line => line ++ "\n")

def overview : String :=
  ofLines [
    "EXQ DOCUMENTATION",
    "",
    "exq filters, orders and pages JSON records using the text a client would send",
    "as request parameters: where, orderBy, skip and take. Field names and types come",
    "from a schema document.",
    "",
    "DOCUMENTATION CATEGORIES",
    "",
    "  where             Clauses, connectives, negation and grouping",
    "  operators         Operator names and which field types accept them",
    "  types             Literal syntax for each field type, null handling",
    "  relations         any/all over child collections",
    "  order-by          Sort keys, directions and thenBy",
    "  paging            skip, take and the default page size",
    "  schema            Describing record fields in JSON",
    "",
    "QUICK REFERENCE",
    "",
    "  Name equals 'Ann'                      Clause",
    "  Age greaterThan 30 and Name in [A, B]  Connectives",
    "  not (Age lessThan 18)                  Negated group",
    "  Tags any (Label equals 'x')            Relation",
    "  Age desc thenBy Name                   Ordering",
    "",
    "Run 'exq doc <category>' for detailed documentation."]

namespace Topic

/-- The names of the topics. -/
def names : List (Topic × List String) :=
  [(filter, ["where", "filter", "filters"]), (operators, ["operators", "ops"]), (types, ["types", "type"]),
    (relations, ["relations", "relation", "any", "all"]),
    (orderBy, ["order_by", "orderby", "order", "sort"]), (paging, ["paging", "skip", "take"]),
    (schema, ["schema", "schemas"])]

/-- The character of a name that a written one stands for. Outside ASCII only the Kelvin sign has an ASCII letter as
its small form. -/
def fold (c : Char) : Char :=
  if c = '\u212a' then 'k' else if c = '-' then '_' else c.toLower

def ofName? (name : String) : Option Topic :=
  let name := String.ofList (name.toList.map fold)
  (names.find? fun entry => name ∈ entry.2).map (·.1)

def text : Topic → String
  | filter => ofLines [
    "WHERE - Filter Expressions",
    "",
    "CLAUSE",
    "  <Field> <operator> <operand>",
    "    Compares one field of each record with a literal.",
    "",
    "    Example:",
    "      Name equals 'Ann Lee'",
    "      Age greaterThan 30",
    "",
    "    Constraints:",
    "      - Field names are case-sensitive",
    "      - Unknown fields are rejected: \"<Field> is not filterable\"",
    "      - Quote literals that contain spaces with '",
    "",
    "CONNECTIVES",
    "  and, or",
    "    Combine clauses strictly left to right. There is no precedence:",
    "",
    "      A or B and C      means   (A or B) and C",
    "",
    "    Use parentheses to group differently:",
    "",
    "      A or (B and C)",
    "",
    "NEGATION",
    "  not",
    "    Negates the clause or group that follows. It may open the query or",
    "    follow a connective, and negates once however often it is repeated:",
    "",
    "      not Age equals 3",
    "      Age equals 3 and not Name equals 'Bo'",
    "      not (Age equals 3 or Age equals 4)",
    "",
    "GROUPS",
    "  ( ... )",
    "    A parenthesized sub-expression is compiled on its own and then combined",
    "    like a single clause. Parentheses must balance; quotes inside a group",
    "    are honored.",
    "",
    "EMPTY",
    "  An empty where keeps every record."]
  | operators => ofLines [
    "OPERATORS - Names and Field Types",
    "",
    "COMPARISON",
    "  equals",
    "  greaterThan",
    "  greaterThanOrEquals   (alias: greaterThanOrEqual)",
    "  lessThan",
    "  lessThanOrEquals      (alias: lessThanOrEqual)",
    "",
    "MEMBERSHIP",
    "  in [a, b, c]",
    "    True when the field equals any listed value. Items are split on commas",
    "    and trimmed; one pair of surrounding quotes is removed ('Ann Lee').",
    "    Items cannot contain commas or ]. An empty list matches nothing.",
    "",
    "STRING",
    "  contains",
    "  startsWith",
    "  endsWith",
    "    Ordinal, case-sensitive.",
    "",
    "RELATION",
    "  any ( ... )",
    "  all ( ... )",
    "    See 'exq doc relations'.",
    "",
    "SUPPORT BY TYPE",
    "",
    "  string              equals, comparisons, in, contains, startsWith, endsWith",
    "  int, decimal        equals, comparisons, in",
    "  optionalInt         equals, comparisons, in",
    "  optionalDecimal     equals, comparisons, in",
    "  optionalBool        equals",
    "  dateTime            equals, comparisons",
    "  optionalDateTime    equals, comparisons",
    "  relation            any, all",
    "",
    "  Any other combination is rejected when the query is compiled."]
  | types => ofLines [
    "TYPES - Literals and Null",
    "",
    "LITERALS",
    "  string              Any word or quoted text",
    "  int, optionalInt    Decimal digits with optional sign: 42, -7",
    "  decimal             42, 19.99, -0.5",
    "  optionalBool        true, false (any case)",
    "  dateTime            2024-05-01, 2024-05-01T13:45:00, RFC 3339 with offset",
    "",
    "NULL",
    "  The literal null compares against absent values of optional fields.",
    "",
    "    Score equals null            Score is absent",
    "    Score greaterThan 3          false when Score is absent",
    "    Rank in [1, null]            Rank is 1 or absent",
    "",
    "  Comparisons other than equals are false when either side is null.",
    "  On int and decimal fields null never matches a value. dateTime fields",
    "  reject null. On string fields null is ordinary text."]
  | relations => ofLines [
    "RELATIONS - any / all",
    "",
    "  <Relation> any ( <child where> )",
    "  <Relation> all ( <child where> )",
    "    The child where is compiled against the relation's own fields and",
    "    applied to each child item.",
    "",
    "    Example:",
    "      Tags any (Label equals 'admin')",
    "      Orders all (Total greaterThan 10 and Paid equals true)",
    "",
    "    Constraints:",
    "      - any over an empty collection is false",
    "      - all over an empty collection is true",
    "      - Relations nest; depth is bounded (see --max-nesting)",
    "      - Relations cannot be ordered by"]
  | orderBy => ofLines [
    "ORDER BY - Sorting",
    "",
    "  <Field> [asc|desc] [thenBy <Field> [asc|desc]]...",
    "",
    "    Example:",
    "      Age desc thenBy Name",
    "",
    "    Constraints:",
    "      - Direction defaults to asc",
    "      - Sorting is stable: ties keep their input order",
    "      - Absent optional values sort before present ones",
    "      - Only scalar fields may be ordered"]
  | paging => ofLines [
    "PAGING - skip and take",
    "",
    "  skip    Number of records to drop after ordering",
    "  take    Maximum number of records to return",
    "",
    "    Constraints:",
    "      - Both must be non-negative integers",
    "      - Without take, the default page size applies (30 unless",
    "        --default-take says otherwise)",
    "      - Applied in order: where, orderBy, skip, take"]
  | schema => ofLines [
    "SCHEMA - Describing Records",
    "",
    "A schema is a JSON object mapping field names to a type name, or to a nested",
    "schema for a relation whose items are the array stored under that key.",
    "",
    "    \x7b",
    "      \"Name\": \"string\",",
    "      \"Age\": \"int\",",
    "      \"Score\": \"optionalDecimal\",",
    "      \"Born\": \"dateTime\",",
    "      \"Tags\": \x7b \"Label\": \"string\" \x7d",
    "    \x7d",
    "",
    "TYPE NAMES",
    "  string, int, optionalInt, decimal, optionalDecimal, optionalBool,",
    "  dateTime, optionalDateTime",
    "",
    "  Missing non-optional values read as \"\", 0 or the Unix epoch.",
    "  Missing optional values read as null."]

end Topic

end RecordQuery.Command
