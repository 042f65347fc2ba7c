/-!
# The interpreter script

What a warm Python interpreter evaluates first: it speaks the interpreter
messages on its standard streams.
-/

namespace Polyglot.Worker

/-- The lines of the script that an interpreter evaluates first. -/
def bootstrapLines : List String :=
  [ "# Worker interpreter for runnr.",
    "#",
    "# Reads run / input_response messages as JSON lines on stdin and answers with",
    "# ready / stdout / stderr / input_request / done / error lines on stdout.",
    "# The interpreter stays warm between runs; each run gets fresh globals.",
    "import asyncio",
    "import importlib",
    "import io",
    "import json",
    "import linecache",
    "import sys",
    "import traceback",
    "",
    "_protocol_in = sys.stdin",
    "_protocol_out = sys.stdout",
    "",
    "ASYNC_ENTRY = \"__runnr_main__\"",
    "DEFAULT_PROMPT = \"Enter value:\"",
    "SOURCE_NAME = \"<main>\"",
    "",
    "",
    "def _send(message):",
    "    _protocol_out.write(json.dumps(message) + \"\\n\")",
    "    _protocol_out.flush()",
    "",
    "",
    "def _read_message():",
    "    while True:",
    "        line = _protocol_in.readline()",
    "        if not line:",
    "            return None",
    "        line = line.strip()",
    "        if not line:",
    "            continue",
    "        try:",
    "            return json.loads(line)",
    "        except ValueError:",
    "            continue",
    "",
    "",
    "class _Sink(io.TextIOBase):",
    "    \"\"\"Forwards complete lines of output as protocol messages.\"\"\"",
    "",
    "    def __init__(self, kind):",
    "        super().__init__()",
    "        self._kind = kind",
    "        self._buffer = \"\"",
    "",
    "    def writable(self):",
    "        return True",
    "",
    "    def write(self, text):",
    "        self._buffer += text",
    "        while \"\\n\" in self._buffer:",
    "            line, self._buffer = self._buffer.split(\"\\n\", 1)",
    "            _send(\x7b\"type\": self._kind, \"data\": line\x7d)",
    "        return len(text)",
    "",
    "    def flush(self):",
    "        if self._buffer:",
    "            _send(\x7b\"type\": self._kind, \"data\": self._buffer\x7d)",
    "            self._buffer = \"\"",
    "",
    "",
    "async def async_input(prompt=None):",
    "    sys.stdout.flush()",
    "    sys.stderr.flush()",
    "    _send(\x7b\"type\": \"input_request\", \"prompt\": str(prompt) if prompt else DEFAULT_PROMPT\x7d)",
    "    loop = asyncio.get_running_loop()",
    "    while True:",
    "        message = await loop.run_in_executor(None, _read_message)",
    "        if message is None:",
    "            raise EOFError(\"host closed the connection\")",
    "        if message.get(\"type\") == \"input_response\":",
    "            return str(message.get(\"value\", \"\"))",
    "",
    "",
    "def _load_packages(packages):",
    "    # Only warms the import cache. A missing module is left for the run's own",
    "    # import statement to report with its line number.",
    "    for package in packages:",
    "        try:",
    "            importlib.import_module(package)",
    "        except ImportError:",
    "            pass",
    "",
    "",
    "def _flush():",
    "    sys.stdout.flush()",
    "    sys.stderr.flush()",
    "",
    "",
    "def _describe(error, line_offset):",
    "    \"\"\"Traceback limited to frames from the submitted code.\"\"\"",
    "    if isinstance(error, SyntaxError) and error.filename == SOURCE_NAME and error.lineno:",
    "        error.lineno -= line_offset",
    "        if error.end_lineno:",
    "            error.end_lineno -= line_offset",
    "",
    "    lines = []",
    "    frames = [",
    "        frame",
    "        for frame in traceback.extract_tb(error.__traceback__)",
    "        if frame.filename == SOURCE_NAME",
    "    ]",
    "    if frames:",
    "        lines.append(\"Traceback (most recent call last):\")",
    "        for frame in frames:",
    "            scope = \"<module>\" if frame.name == ASYNC_ENTRY else frame.name",
    "            lines.append(",
    "                f'  File \"\x7bSOURCE_NAME\x7d\", line \x7bframe.lineno - line_offset\x7d, in \x7bscope\x7d'",
    "            )",
    "            if frame.line:",
    "                lines.append(f\"    \x7bframe.line.strip()\x7d\")",
    "    lines.extend(traceback.format_exception_only(type(error), error))",
    "    return \"\\n\".join(line.rstrip(\"\\n\") for line in lines)",
    "",
    "",
    "def _run(message):",
    "    namespace = \x7b\"__name__\": \"__main__\", \"async_input\": async_input\x7d",
    "    source = message.get(\"code\", \"\")",
    "    # The coroutine wrapper adds its `async def` header above the user's code.",
    "    line_offset = 1 if message.get(\"mode\") == \"async\" else 0",
    "    linecache.cache[SOURCE_NAME] = (len(source), None, source.splitlines(True), SOURCE_NAME)",
    "    try:",
    "        _load_packages(message.get(\"packages\", []))",
    "        code = compile(source, SOURCE_NAME, \"exec\")",
    "        exec(code, namespace)",
    "        if message.get(\"mode\") == \"async\":",
    "            asyncio.run(namespace[ASYNC_ENTRY]())",
    "    except SystemExit:",
    "        pass",
    "    except BaseException as error:",
    "        _flush()",
    "        _send(\x7b\"type\": \"error\", \"data\": _describe(error, line_offset)\x7d)",
    "        return",
    "    _flush()",
    "    _send(\x7b\"type\": \"done\"\x7d)",
    "",
    "",
    "def main():",
    "    sys.stdin = io.StringIO(\"\")",
    "    sys.stdout = _Sink(\"stdout\")",
    "    sys.stderr = _Sink(\"stderr\")",
    "    _send(\x7b\"type\": \"ready\"\x7d)",
    "",
    "    while True:",
    "        message = _read_message()",
    "        if message is None:",
    "            return",
    "        if message.get(\"type\") == \"run\":",
    "            _run(message)",
    "",
    "",
    "main()" ]

/-- The text of the script that an interpreter evaluates first. -/
def bootstrap : String :=
  String.join (bootstrapLines.map (· ++ "\n"))

end Polyglot.Worker
