/-!
# The standard configuration

The languages that are known when nothing else is configured.  The text is also
what a new configuration file begins with.
-/

namespace Polyglot.Config

/-- The lines of the standard configuration. -/
def exampleTextLines : List String :=
  [ "# Runnr configuration",
    "#",
    "# Each language is served by one backend:",
    "#   sandbox    fresh isolated context per run (\x7bbootstrap\x7d is the embedded sandbox script)",
    "#   worker     warm interpreter on a background worker thread (\x7bbootstrap\x7d is the embedded worker script)",
    "#   transpile  source-to-source compiler whose output runs on a sandbox language",
    "#   toolchain  compile to an artifact in a scratch directory, then run it",
    "",
    "# Seconds to wait for a worker interpreter to report readiness",
    "worker_ready_timeout = 30.0",
    "",
    "# Parent directory for toolchain scratch directories (defaults to the system temp dir)",
    "# work_dir = \"/tmp/runnr\"",
    "",
    "[languages.javascript]",
    "name = \"JavaScript\"",
    "extension = \"js\"",
    "aliases = [\"js\"]",
    "backend = \"sandbox\"",
    "",
    "[languages.javascript.runtime]",
    "command = [\"node\", \"-e\", \"\x7bbootstrap\x7d\"]",
    "",
    "[languages.typescript]",
    "name = \"TypeScript\"",
    "extension = \"ts\"",
    "aliases = [\"ts\"]",
    "backend = \"transpile\"",
    "",
    "[languages.typescript.transpile]",
    "command = [\"esbuild\", \"--loader=ts\", \"--target=\x7btarget\x7d\"]",
    "delegate = \"javascript\"",
    "target = \"es2020\"",
    "module = \"es2020\"",
    "strict = true",
    "",
    "[languages.python]",
    "name = \"Python\"",
    "extension = \"py\"",
    "aliases = [\"py\"]",
    "backend = \"worker\"",
    "",
    "[languages.python.runtime]",
    "command = [\"python3\", \"-u\", \"-c\", \"\x7bbootstrap\x7d\"]",
    "",
    "[languages.java]",
    "name = \"Java\"",
    "extension = \"java\"",
    "backend = \"toolchain\"",
    "",
    "[languages.java.compile]",
    "command = [\"javac\", \"-cp\", \"\x7blibs\x7d\", \"-d\", \"\x7bdir\x7d\", \"\x7bsource\x7d\"]",
    "source_name = \"Main.java\"",
    "output_name = \"Main.class\"",
    "",
    "[languages.java.run]",
    "command = [\"java\", \"-cp\", \"\x7blibs\x7d\", \"Main\"]",
    "missing_entry_markers = [\"Main method not found\", \"Could not find or load main class\"]",
    "",
    "[languages.c]",
    "name = \"C\"",
    "extension = \"c\"",
    "backend = \"toolchain\"",
    "",
    "[languages.c.compile]",
    "command = [\"gcc\", \"-std=c17\", \"-O2\", \"\x7bsource\x7d\", \"-o\", \"\x7boutput\x7d\", \"-lm\"]",
    "source_name = \"main.c\"",
    "output_name = \"main\"",
    "",
    "[languages.c.run]",
    "command = [\"\x7bbinary\x7d\"]",
    "missing_entry_markers = [\"undefined reference to `main'\"]",
    "",
    "[languages.cpp]",
    "name = \"C++\"",
    "extension = \"cpp\"",
    "aliases = [\"c++\", \"cc\"]",
    "backend = \"toolchain\"",
    "",
    "[languages.cpp.compile]",
    "command = [\"g++\", \"-std=c++17\", \"-O2\", \"\x7bsource\x7d\", \"-o\", \"\x7boutput\x7d\"]",
    "source_name = \"main.cpp\"",
    "output_name = \"main\"",
    "",
    "[languages.cpp.run]",
    "command = [\"\x7bbinary\x7d\"]",
    "missing_entry_markers = [\"undefined reference to `main'\"]",
    "",
    "[languages.rust]",
    "name = \"Rust\"",
    "extension = \"rs\"",
    "aliases = [\"rs\"]",
    "backend = \"toolchain\"",
    "",
    "[languages.rust.compile]",
    "command = [\"rustc\", \"--edition=2021\", \"-O\", \"\x7bsource\x7d\", \"-o\", \"\x7boutput\x7d\"]",
    "source_name = \"main.rs\"",
    "output_name = \"main\"",
    "",
    "[languages.rust.run]",
    "command = [\"\x7bbinary\x7d\"]",
    "missing_entry_markers = [\"`main` function not found\"]" ]

/-- The text of the standard configuration. -/
def exampleText : String :=
  String.join (exampleTextLines.map (· ++ "\n"))

end Polyglot.Config
