/-!
# Pages and scripts

The query editor, its script and the page that leads to it are part of the program.
-/

namespace HotSwap.Http.Asset

/-- The page of the query editor. -/
def editorLines : List String := [
  "<!DOCTYPE html>",
  "<html lang=\"en\">",
  "  <head>",
  "    <meta charset=\"utf-8\">",
  "    <meta name=\"robots\" content=\"noindex\">",
  "    <meta name=\"viewport\" content=\"width=device-width, initial-scale=1\">",
  "    <meta name=\"referrer\" content=\"origin\">",
  "    <title>DevServe GraphiQL</title>",
  "    <style>",
  "      body \x7b",
  "        height: 100%;",
  "        margin: 0;",
  "        width: 100%;",
  "        overflow: hidden;",
  "      \x7d",
  "      #graphiql \x7b",
  "        height: 100vh;",
  "      \x7d",
  "    </style>",
  "    <script crossorigin src=\"https://unpkg.com/react@18/umd/react.development.js\"></script>",
  "    <script crossorigin" ++
    " src=\"https://unpkg.com/react-dom@18/umd/react-dom.development.js\"></script>",
  "    <link rel=\"icon\" href=\"https://graphql.org/favicon.ico\">",
  "    <link rel=\"stylesheet\" href=\"https://unpkg.com/graphiql@3/graphiql.min.css\" />",
  "  </head>",
  "  <body>",
  "    <div id=\"graphiql\">Loading...</div>",
  "    <script src=\"https://unpkg.com/graphiql@3/graphiql.min.js\"" ++
    " type=\"application/javascript\"></script>",
  "    <script type=\"module\">",
  "      import \x7b createPatchedFetcher \x7d from \x27/js/introspection-patch.js\x27;",
  "",
  "      const root = ReactDOM.createRoot(document.getElementById(\x27graphiql\x27));",
  "      const fetcher = createPatchedFetcher(",
  "        GraphiQL.createFetcher(\x7b url: window.location.origin + \x27/graphql\x27 \x7d)",
  "      );",
  "",
  "      root.render(React.createElement(GraphiQL, \x7b",
  "        fetcher: fetcher,",
  "        defaultEditorToolsVisibility: true,",
  "      \x7d));",
  "    </script>",
  "  </body>",
  "</html>"]

/-- The script of the query editor: it fills in lists that engines leave out. -/
def scriptLines : List String := [
  "// Normalizes introspection results before GraphiQL reads them.",
  "// Some engines omit list fields that are empty; GraphiQL expects them present.",
  "",
  "function withList(obj, key) \x7b",
  "  return Object.prototype.hasOwnProperty.call(obj, key) ? obj : \x7b ...obj, [key]: [] \x7d;",
  "\x7d",
  "",
  "function patchType(type) \x7b",
  "  let patched = type;",
  "  if ((type.kind === \x27OBJECT\x27 || type.kind === \x27INTERFACE\x27)) \x7b",
  "    patched = withList(patched, \x27interfaces\x27);",
  "  \x7d",
  "  if (Array.isArray(type.fields)) \x7b",
  "    patched = \x7b ...patched, fields: type.fields.map((field) =>" ++
    " withList(field, \x27args\x27)) \x7d;",
  "  \x7d",
  "  return patched;",
  "\x7d",
  "",
  "export function createPatchedFetcher(baseFetcher) \x7b",
  "  return async (params, options) => \x7b",
  "    const result = await baseFetcher(params, options);",
  "    const schema = result && result.data && result.data.__schema;",
  "    if (!schema) \x7b",
  "      return result;",
  "    \x7d",
  "    if (Array.isArray(schema.directives)) \x7b",
  "      schema.directives = schema.directives.map((directive) =>" ++
    " withList(directive, \x27args\x27));",
  "    \x7d",
  "    if (Array.isArray(schema.types)) \x7b",
  "      schema.types = schema.types.map(patchType);",
  "    \x7d",
  "    return result;",
  "  \x7d;",
  "\x7d"]

def ofLines (lines : List String) : String := String.join (lines.map fun l => l ++ "\n")

def editor : String := ofLines editorLines

def redirect : String :=
  "<html><head><meta http-equiv=\"refresh\" content=\"0; url=/graphiql\"></head></html>"

def scripts : List (String × String) := [("introspection-patch.js", ofLines scriptLines)]

def script? (file : String) : Option String := scripts.lookup file

def endsWith (s suffix : String) : Bool := suffix.toList.reverse.isPrefixOf s.toList.reverse

def contentType (file : String) : String :=
  if endsWith file ".js" || endsWith file ".jsx" then "text/javascript"
  else "application/octet-stream"

end HotSwap.Http.Asset
