/-
  HttpShield.Scan.Patterns
  ────────────────────────
  `ngx_http_shield_patterns.h`: the compiled-in signature tables, the category
  table and the AND-rules, entry by entry and in the order of the source, and
  the two masks that are computed from the category flags.

    • `shieldTables_valid`  — the tables are what the builder expects,
    • `shieldTables_fit`    — neither automaton is refused for its size,
    • `raw_sig_decoded`     — all RAW signatures but one show in the decoded copy,
      or are about an encoded byte.
-/
import HttpShield.Scan.Search

namespace HttpShield

/-! ## §1. Category identifiers. -/

/-- `ngx_http_shield_cat_e`.  The order is that of the bits of `shield_skip`. -/
inductive ShieldCat where
  | sqli | xss | traversal | overlong | cmdi | lfiRfi | crlf | nullbyte | template | deserial
  | shellshock | phpRce | javaRce | javaEval | railsYaml | drupal | vbulletin | xmlrpc | ssi
  | imagetragick | httpoxy | rangeDos | sensitiveFile | webshell | ssrfMeta | nosql | ssti
  | exploitPath | ctrlChar | dotfile
  deriving Repr, DecidableEq

/-- The bit of a category. -/
def ShieldCat.bit (c : ShieldCat) : Nat := c.ctorIdx

/-! ## §2. Signature tables. -/

namespace Signatures

-- 1. SQL injection
def sqli : List Bytes :=
  ["union select", "union all select", "union distinct select", "union/**/select",
    "union\tselect", "union\nselect", "union\rselect", "union\x0bselect",
    "union\x0cselect", "or/**/1=1", "and/**/sleep(", "select/**/sleep(", "' or 1=1",
    "\" or 1=1", "or '1'='1", "or \"1\"=\"1", "or 1=1--", "or 1=1#", "or 1=1/*",
    ") or ('1'='1", "' or ''='", "' and '1'='1", "' and sleep(", "' or sleep(",
    "\" and sleep(", "\" or sleep(", ") and sleep(", ") or sleep(", ";sleep(",
    "select sleep(", " or sleep(", " and sleep(", "admin'--", "'='') or",
    "pg_sleep(", "benchmark(", "waitfor delay", "dbms_pipe.receive_message",
    "information_schema", "group_concat(", "load_file(", "into outfile",
    "into dumpfile", "extractvalue(", "updatexml(", "procedure analyse(",
    "; drop table", "; drop database", "xp_cmdshell", "sp_oacreate", "sp_oamethod",
    "openrowset(", "opendatasource(", "pg_read_file(", "pg_read_binary_file(",
    "pg_write_file(", "lo_import(", "lo_export(", "dbms_java.runjava",
    "dbms_scheduler.create_job", "utl_file.", "utl_tcp.", "ctxsys.drithsx.sn",
    "utl_inaddr", "utl_http.request", "json_arrayagg(", "/**/union/**/", "/*!50000",
    "0x53514c"].map bytesOf

-- 2. XSS
def xss : List Bytes :=
  ["<script", "</script", "javascript:", "vbscript:", "onerror=", "onload=",
    "onmouseover=", "onfocus=", "ontoggle=", "onbeforetoggle=", "onanimationstart=",
    "onpointerover=", "onmouseenter=", "onwheel=", "onbegin=", "onstart=",
    "onauxclick=", "onpointerenter=", "onbeforeinput=", "onpageshow=",
    "onhashchange=", "document.cookie", "document.location", "window.location",
    "<svg/onload", "<svg onload", "<iframe", "<img src=x", "<body onload",
    "<details open onto", "<object data=", "<embed src=", "<base href=",
    "<math href=", "xlink:href=", "data:text/html", "<video onerror",
    "<audio onerror", "formaction=", "srcdoc=", "expression(", "fromcharcode(",
    "eval(atob(", "alert(document.", "<script>alert", "javascript&colon;",
    "javascript&#58;", "javascript&#x3a;"].map bytesOf

-- 3. Path traversal
def traversal : List Bytes :=
  ["../", "..\\", "....//", "....\\\\", "..;/", ".%2e/", "%2e%2e/", "..%2f",
    "..%5c", ".%%32%65"].map bytesOf

-- 4. Overlong-UTF-8 traversal (matched against RAW input)
def overlong : List Bytes :=
  ["%c0%af", "%e0%80%af", "%f0%80%80%af", "%f8%80%80%80%af", "%fc%80%80%80%80%af",
    "%c0%2f", "%e0%80%2f", "%c1%9c", "%c0%9c", "%e0%80%9c", "%c1%1c", "%c0%ae",
    "%e0%80%ae", "%f0%80%80%ae", "%c0%80", "%e0%80%80", "%u002f", "%u005c",
    "%u002e", "%u0025"].map bytesOf

-- 5. Command injection
def cmdi : List Bytes :=
  [";wget ", ";curl ", "&&wget ", "&&curl ", "||wget ", "||curl ", "|wget ",
    "|curl ", "|sh ", "|bash ", "&&cat ", ";cat ", ";id;", ";id ", ";uname",
    ";whoami", ";sh ", ";busybox ", "|busybox ", "$(id)", "$(curl", "$(wget",
    "$(cat ", "$(whoami", "$(uname", "`wget", "`curl", "`id`", "/bin/sh",
    "/bin/bash", "bash -i", "sh -c ", "/dev/tcp/", "$\x7bifs\x7d", "$ifs$", ";nc ",
    "nc -e", "ncat -e", ";python -c", ";perl -e", "chmod 777", "chmod +x",
    "cmd.exe?/c", "cmd.exe /c", "/c powershell", "powershell -e", "powershell -enc",
    "powershell.exe -enc", "base64 -d", "certutil -urlcache",
    "certutil.exe -urlcache", "/winnt/system32"].map bytesOf

-- 6. File inclusion (LFI/RFI)
def lfiRfi : List Bytes :=
  ["php://input", "php://filter", "php://fd", "data://text", "expect://", "zip://",
    "phar://", "glob://", "rar://", "ogg://", "compress.zlib://",
    "compress.bzip2://", "gopher://", "dict://", "file:///etc/", "pearcmd.php"].map bytesOf

-- 7. CRLF / HTTP response splitting (matched against RAW input)
def crlf : List Bytes :=
  ["%0d%0a", "%0a%0d", "\r\nset-cookie", "\r\nlocation:", "\r\ncontent-length",
    "%0d%0aset-cookie", "%0d%0alocation:", "%0d%0acontent-length", "%0aset-cookie",
    "%e5%98%8a%e5%98%8d", "%u000d%u000a"].map bytesOf

-- 8. Null byte / encoding abuse (matched against RAW input)
def nullbyte : List Bytes :=
  ["%00", "%2500", "%25%30%30", "%u0000", "%252e%252e", "%252f", "%255c",
    "%25%32%65", "%25%32%66", "%25252e", "%25252f", "%252500"].map bytesOf

-- 9. JNDI / template injection
def template : List Bytes :=
  ["$\x7bjndi:", "jndi:ldap:", "jndi:rmi:", "jndi:dns:", "jndi:iiop:",
    "jndi:ldaps:", "jndi:nis:", "$\x7benv:", "$\x7blower:", "$\x7bupper:",
    "$\x7bsys:", "$\x7bdate:", "$\x7bctx:", "$\x7bmain:", "$\x7bbase64:",
    "$\x7bmarker:", "$\x7b::-", "$\x7b$\x7b", "$\x7b$\x7blower:", "#\x7b7*7\x7d"].map bytesOf

-- 10. Deserialization / XXE
def deserial : List Bytes :=
  ["ro0ab", "aced0005", "o:21:\"jdatabasedrivermysqli\"", "o:24:\"guzzlehttp",
    "jdbcrowsetimpl", "templatesimpl", "com.sun.org.apache.xalan",
    "badattributevalueexpexception", "org.apache.commons.collections.functors",
    "org.apache.commons.collections4.functors", "com.mchange.v2.c3p0",
    "bsh.interpreter", "groovy.lang.groovyshell", "javax.el.elprocessor",
    "<java.lang.processbuilder", "<work:workcontext", "\"@type\":\"com.sun.",
    "\"@type\":\"java.lang", "\"@type\":\"org.apache", "\"@type\":\"ch.qos.logback",
    "\"@type\":\"com.alibaba", "system \"file:", "system 'file:", "system \"http:",
    "system 'http:"].map bytesOf

-- 11. Shellshock
def shellshock : List Bytes :=
  ["() \x7b :;\x7d", "() \x7b :; \x7d", "() \x7b:;\x7d", "()\x7b :;\x7d",
    "()\x7b:;\x7d", "() \x7b :\t;\x7d", "() \x7b _;\x7d >_[$($())]",
    "() \x7b _; \x7d >_[$($())]", "() \x7b ignored;\x7d", "() \x7b test;\x7d",
    "() \x7b echo", "() \x7b /bin/", "() \x7b curl", "() \x7b wget",
    "() \x7b :;\x7d ;"].map bytesOf

-- 12. Ancient PHP RCE chains
def phpRce : List Bytes :=
  ["-d allow_url_include", "-d auto_prepend_file", "-d auto_append_file",
    "-d allow_url_fopen", "-dsafe_mode", "eval-stdin.php",
    "invokefunction&function=call_user_func_array", "s=/index/\\think",
    "think\\app/invokefunction", "?a=fetch&content=<?php", "<?php system(",
    "<?php eval(", "<?php passthru(", "php_value auto_prepend", "/phppath/php",
    "allow_url_include=1"].map bytesOf

-- 13. Struts / Spring RCE
def javaRce : List Bytes :=
  ["%\x7b(#", "$\x7b(#", "(#_memberaccess", "#_memberaccess[", "ognl.ognlcontext",
    "(#context[", "@ognl.ognlruntime@", "struts.devmode", "redirect:$\x7b",
    "action:$\x7b", "class.module.classloader", "class['module']",
    "class.classloader", "@java.lang.runtime@getruntime().exec(",
    "@ognl.ognlcontext@default_member_access", "@org.apache.commons.io.ioutils@",
    "com.opensymphony.webwork.servletactioncontext", "(#cmd=",
    "new java.lang.processbuilder("].map bytesOf

-- 14. Java runtime eval
def javaEval : List Bytes :=
  ["java.lang.runtime", "getruntime().exec", "runtime.getruntime",
    "java.lang.processbuilder", "new processbuilder", "t(java.lang.runtime)",
    "javax.script.scriptengine", "freemarker.template.utility.execute", "<#assign",
    "com.opensymphony.xwork2", "javax.naming.initialcontext"].map bytesOf

-- 15. Rails YAML deserialization
def railsYaml : List Bytes :=
  ["!ruby/object:", "!ruby/hash:", "!ruby/struct:"].map bytesOf

-- 16. Drupalgeddon2
def drupal : List Bytes :=
  ["[#post_render]", "[#markup]", "[#lazy_builder]", "#post_render]="].map bytesOf

-- 17. vBulletin RCE
def vbulletin : List Bytes :=
  ["widgetconfig[code]", "widgetconfig['code']"].map bytesOf

-- 18. WordPress xmlrpc multicall abuse (body)
def xmlrpc : List Bytes :=
  ["system.multicall"].map bytesOf

-- 19. SSI injection
def ssi : List Bytes :=
  ["<!--#exec", "<!--#include virtual", "<!--#include file"].map bytesOf

-- 20. ImageTragick (body)
def imagetragick : List Bytes :=
  ["push graphic-context", "fill 'url(https", "fill 'url(|"].map bytesOf

-- 23. Sensitive-file probes
def sensitiveFile : List Bytes :=
  ["/etc/passwd", "/etc/shadow", "/etc/hosts", "/etc/group", "/proc/self/environ",
    "/proc/self/cmdline", "/proc/self/fd/", "/proc/self/maps", "/proc/self/status",
    "/proc/self/mountinfo", "/proc/net/tcp", "/etc/machine-id", "/etc/hostname",
    "/etc/resolv.conf", "/etc/sudoers", "/etc/environment", "/etc/crontab",
    "/etc/ssh/sshd_config", "/etc/nginx/nginx.conf", "/etc/letsencrypt/",
    "/web-inf/web.xml", "/var/run/secrets/kubernetes.io/serviceaccount/",
    "/var/log/auth.log", "/var/log/secure", "/var/lib/docker/containers/",
    "win.ini", "boot.ini", "\\windows\\system32", "/windows/win.ini", "/.env",
    "/.git/", "/.svn/", "/.hg/", "/.bzr/", "wp-config.php.bak",
    "wp-config.php.save", "wp-config.php.swp", "wp-config.php.orig",
    "wp-config.php~", "/.aws/credentials", "/.ssh/id_rsa", "/.ssh/id_dsa",
    "/.ssh/authorized_keys", "/.ds_store", "/.htaccess", "/.htdigest", "/.htpasswd",
    "/.bash_history", "/.mysql_history", "/.npmrc", "/.dockercfg",
    "/.docker/config.json", "/.kube/config", "/backup.sql", "/dump.sql",
    "/database.sql", "/.git-credentials", "/config/database.yml",
    "/.env.production", "/.env.local", "/.env.bak", "/config.php.bak",
    "/config.php.swp", "/config.php~", "/settings.py.bak", "/.idea/workspace.xml",
    "/.vscode/sftp.json", "/.circleci/config.yml", "/.travis.yml", "/.netrc",
    "/.pgpass", "/.my.cnf", "/id_rsa", "/id_ed25519", "/.ftpconfig",
    "/.google_authenticator", "/.s3cfg", "/.boto", "/.credentials",
    "/.deployment-secrets.txt", "/.cargo/credentials", "/.config/pip/pip.conf",
    "/.config/composer/auth.json", "/.composer/auth.json", "/.gsutil/",
    "/.minikube/", "/.password-store/", "/.secrets", "/composer.json.bak",
    "/artisan.bak", "/.aws/", "/.azure/", "/.docker/", "/.gnupg/", "/.kube/",
    "/.ssh/", "/.config/gcloud/", "/.config/gh/", "/.gem/credentials", "/.pypirc",
    "/.rediscli_history", "/.psql_history", "/.python_history",
    "/terraform.tfstate", "/config/master.key", "/app/etc/env.php",
    "/storage/logs/laravel.log", "/.claude/", "/.cursor/", "/.continue/",
    "/.aider/", "/.roo/", "/.zed/", "/.cline/", "/.kiro/", "/.windsurf/",
    "/.rovodev/", "/.codex/", "/.opencode/", "/.a0proj/", "/.plandex/", "/.fabric/",
    "/.n8n/", "/.junie/", "/.gemini/", "/.openclaw/", "/.clawdbot/", "/.trustclaw/",
    "/.zeroclaw/", "/.warp/", "/.qwen_code/", "/.crush/", "/.terraform/",
    "/.dockerenv"].map bytesOf

-- 24. Webshell probes
def webshell : List Bytes :=
  ["c99.php", "r57.php", "wso.php", "b374k", "alfa.php", "/shell.php?cmd=",
    "/cmd.php?cmd=", "/shell.jsp", "/cmd.jsp", "/tunnel.jsp", "filesman",
    "indoxploit", "p0wny", "weevely", "antsword", "behinder", "regeorg", "gel4y",
    "aspxspy", "wshell.php", "mini.php?", "ghost_eye", "bloodsec",
    "marijuana_shell", "kacak_shell", "wpyii2", "smevk", "xleet", "spinstall0.aspx",
    "turkshell.php"].map bytesOf

-- 25. Cloud metadata SSRF
def ssrfMeta : List Bytes :=
  ["169.254.169.254", "100.100.100.200", "192.0.0.192", "metadata.google.internal",
    "/latest/meta-data/", "/latest/user-data", "/latest/dynamic/instance-identity",
    "/metadata/v1/", "/metadata/instance", "/computemetadata/v1/",
    "/opc/v1/instance", "2852039166", "0xa9fea9fe", "025177524776",
    "0251.0376.0251.0376", "0251.254.169.254", "0xa9.0xfe.0xa9.0xfe",
    "[::ffff:a9fe:a9fe]", "[0:0:0:0:0:ffff:a9fe:a9fe]",
    "[0:0:0:0:0:ffff:169.254.169.254]", "169。254。169。254", "169｡254｡169｡254",
    "instance-data/latest/", "169.254.170.2/v2", "metadata.packet.net/userdata",
    "/2009-04-04/meta-data/", "rancher-metadata/", "/latest/api/token",
    "/latest/meta-data/iam/security-credentials/", "metadata-flavor: google",
    "metadata-flavor:google", "127.0.0.1:2375", "2130706433:2375",
    "0x7f000001:2375", "0177.0.0.1:2375", "017700000001:2375", "[::1]:2375",
    "[0:0:0:0:0:ffff:127.0.0.1]:2375", "127.0.0.1:2379",
    "localhost:9001/2018-06-01/runtime/"].map bytesOf

-- 26. NoSQL injection
def nosql : List Bytes :=
  ["[$ne]", "[$gt]", "[$lt]", "[$regex]", "[$where]", "[$exists]",
    "\x7b\"$where\":", "\x7b\"$where\" :", "$where:function", "$func:",
    "';return true;var"].map bytesOf

-- 27. Server-side template injection
def ssti : List Bytes :=
  ["\x7b\x7b7*7\x7d\x7d", "$\x7b7*7\x7d", "#\x7b7*7\x7d", "*\x7b7*7\x7d",
    "\x7b\x7b7*'7'\x7d\x7d", "<%= 7*7", "\x7b\x7bconfig", "\x7b\x7brequest",
    "\x7b\x7bself", "\x7b\x7b''.__class__", "\x7b\x7b().__class__", "$\x7bt(java",
    "#set($", "[[$\x7b"].map bytesOf

-- 28. Known n-day exploit paths
def exploitPath : List Bytes :=
  ["/wls-wsat/", "/mgmt/tm/util/bash", "/mgmt/shared/authn/login", "/hipreport.esp",
    "/remote/fgt_lang", "/+cscoe+/", "/dana-na/", "/cgi-bin/luci",
    "/boaform/admin/formlogin", "/gponform/diag_form", "/hnap1/",
    "/setup.cgi?next_file", "/solr/admin/cores", "/actuator/gateway/routes",
    "/_ignition/execute-solution", "/api/jsonws/invoke", "/console/css/%252e",
    "autodiscover.json?@", "autodiscover.json%3f@", "/owa/auth/x.",
    "/vpns/portal/scripts", "/securityrealm/user/admin/descriptorbyname",
    "/config/getuser?index=", "/tmui/login.jsp/..;/", "/hsqldb%0a",
    "/ui/vropspluginui/rest/services/uploadova",
    "/ui/vropspluginui/rest/services/getstatus",
    "/analytics/telemetry/ph/api/hyper/send", "/webtools/control/xmlrpc",
    "/webtools/control/programexport", "/gwtest/formssso?event=", "/vpn/../vpns/",
    "/newbm.pl", "/remote/fgt_lang?lang=/../", "sslvpn_websession",
    "/api/v1/totp/user-backup-code/../", "/moveitisapi/moveitisapi.dll",
    "/guestaccess.aspx", "/app/rest/debug/authenticationtest.jsp",
    "/json/setup-restore", "/setup/setupadministrator.action", "/dana-ws/saml20.ws",
    "/_async/asyncresponseservice", "/goform/set_limitclient_cfg",
    "/setupwizard.aspx/", ";.jsp", "/res/../admin/diagnostic.jsp",
    "/oauth/idp/.well-known/openid-configuration", "/databases/upgrademysqlstatus",
    "/developmentserver/metadatauploader", "/_layouts/15/toolpane.aspx",
    "/apps/graphapi/vendor/microsoft/", "/nmapi/recurringreport"].map bytesOf

end Signatures

/-! ## §3. The category table. -/

/-- `NGX_HTTP_SHIELD_TABLE`. -/
def shieldTable (c : ShieldCat) (name : String) (sigs : List Bytes) (flags : Nat) : CatDef :=
  { cat := c.bit, name := bytesOf name, sigs := sigs, flags := flags }

/-- `ngx_http_shield_categories`. -/
def shieldCategories : List CatDef :=
  [ shieldTable .sqli "sqli" Signatures.sqli matchDecoded,
    shieldTable .xss "xss" Signatures.xss (matchDecoded ||| noBody ||| noQuery),
    shieldTable .traversal "traversal" Signatures.traversal
        (matchDecoded ||| matchRaw ||| noBody),
    shieldTable .overlong "overlong" Signatures.overlong matchRaw,
    shieldTable .cmdi "cmdi" Signatures.cmdi (matchDecoded ||| noBody),
    shieldTable .lfiRfi "lfi" Signatures.lfiRfi (matchDecoded ||| noBody),
    shieldTable .crlf "crlf" Signatures.crlf (matchDecoded ||| matchRaw),
    shieldTable .nullbyte "nullbyte" Signatures.nullbyte matchRaw,
    shieldTable .template "template" Signatures.template (matchDecoded ||| noBody),
    shieldTable .deserial "deserial" Signatures.deserial matchDecoded,
    shieldTable .shellshock "shellshock" Signatures.shellshock matchDecoded,
    shieldTable .phpRce "php_rce" Signatures.phpRce (matchDecoded ||| noBody),
    shieldTable .javaRce "java_rce" Signatures.javaRce (matchDecoded ||| matchRaw ||| noBody),
    shieldTable .javaEval "java_eval" Signatures.javaEval (matchDecoded ||| noBody),
    shieldTable .railsYaml "rails_yaml" Signatures.railsYaml matchDecoded,
    shieldTable .drupal "drupal" Signatures.drupal matchDecoded,
    shieldTable .vbulletin "vbulletin" Signatures.vbulletin matchDecoded,
    shieldTable .xmlrpc "xmlrpc" Signatures.xmlrpc matchDecoded,
    shieldTable .ssi "ssi" Signatures.ssi matchDecoded,
    shieldTable .imagetragick "imagetragick" Signatures.imagetragick matchDecoded,
    shieldTable .sensitiveFile "sensitive_file" Signatures.sensitiveFile
        (matchDecoded ||| noBody ||| noQuery),
    shieldTable .webshell "webshell" Signatures.webshell matchDecoded,
    shieldTable .ssrfMeta "ssrf_meta" Signatures.ssrfMeta matchDecoded,
    shieldTable .nosql "nosql" Signatures.nosql (matchDecoded ||| matchRaw),
    shieldTable .ssti "ssti" Signatures.ssti (matchDecoded ||| matchRaw),
    shieldTable .exploitPath "exploit_path" Signatures.exploitPath
        (matchDecoded ||| matchRaw ||| noBody) ]

/-! ## §4. AND-rules. -/

/-- `NGX_HTTP_SHIELD_RULE`. -/
def shieldRule (c : ShieldCat) (terms : List String) (flags : Nat) : RuleDef :=
  { cat := c.bit, terms := terms.map bytesOf, flags := flags }

/-- `ngx_http_shield_rules`.  Their names only label log lines and are left out. -/
def shieldRules : List RuleDef :=
  [ shieldRule .exploitPath ["requirepasswordchange=y", "/webtools/control/"] matchDecoded,
    shieldRule .deserial ["jdbc:h2:", "init="] matchDecoded,
    shieldRule .exploitPath ["/cli?", "remoting=true"] matchDecoded,
    shieldRule .exploitPath ["/catalog-portal/ui/oauth/verify", "$\x7b"] matchDecoded,
    shieldRule .ssrfMeta [".nip.io", "169-254-169-254"] matchDecoded,
    shieldRule .exploitPath
        ["/cf_scripts/scripts/ajax/ckeditor/plugins/filemanager/", "_cfclient=true"]
        matchDecoded ]

/-- The compiled-in tables. -/
def shieldTables : Tables where
  categories := shieldCategories
  rules := shieldRules

/-! ## §5. Masks from the category flags. -/

/-- The categories of the table whose row carries a flag, as a mask. -/
def flagMask (flag : Nat) : List CatDef → Mask → Except Fault Mask
  | [], mask => .ok mask
  | c :: cats, mask => do
      if c.flags &&& flag ≠ 0 then
        let bit ← maskBit c.cat
        flagMask flag cats (mask ||| bit)
      else
        flagMask flag cats mask

/-- `ngx_http_shield_no_body_mask`. -/
def noBodyMask : Except Fault Mask := flagMask noBody shieldCategories 0

/-- `ngx_http_shield_no_query_mask`. -/
def noQueryMask : Except Fault Mask := flagMask noQuery shieldCategories 0

/-! ## §6. The tables are well formed. -/

/-- The one signature of a RAW category with a literal `+`, which the decoded copy
turns into a space. -/
def cscoe : Bytes := bytesOf "/+cscoe+/"

/-- What the tables hold of a signature, in one pass over them. -/
theorem sig_facts : ∀ c ∈ shieldCategories, ∀ sig ∈ c.sigs, 3 ≤ sig.length
    ∧ (c.isIn matchRaw = true → 37 ∈ sig ∨ (c.isIn matchDecoded = true ∧ 43 ∉ sig)
      ∨ (c.cat = ShieldCat.exploitPath.bit ∧ sig = cscoe)) := by
  decide +kernel

/-- No signature is shorter than three bytes, and no rule has only such terms. -/
theorem sigs_not_short : (∀ c ∈ shieldCategories, ∀ sig ∈ c.sigs, 3 ≤ sig.length)
    ∧ ∀ r ∈ shieldRules, ∃ t ∈ r.terms, 3 ≤ t.length := by
  constructor
  · intro c hc sig hsig
    exact (sig_facts c hc sig hsig).1
  · decide +kernel

theorem shieldTables_valid : shieldTables.Valid where
  sigs_ne_nil := by
    intro c hc sig hsig hnil
    have := sigs_not_short.1 c hc sig hsig
    rw [hnil] at this
    exact absurd this (by decide)
  terms_ne_nil := by decide +kernel
  has_terms := by decide +kernel
  cat_lt := by decide +kernel
  one_row := by decide +kernel
  rule_cat := by decide +kernel

/-- Neither automaton is too large to be built. -/
theorem shieldTables_fit : shieldTables.nterms ≤ 64
    ∧ shieldTables.cap matchDecoded ≤ acMaxStates ∧ shieldTables.cap matchRaw ≤ acMaxStates := by
  decide +kernel

/-- A RAW signature is about an encoded byte, or its category is scanned in the
decoded copy, too, where it shows unless it is `cscoe`. -/
theorem raw_sig_decoded : ∀ c ∈ shieldCategories, c.isIn matchRaw = true → ∀ sig ∈ c.sigs,
    37 ∈ sig ∨ (c.isIn matchDecoded = true ∧ 43 ∉ sig)
      ∨ (c.cat = ShieldCat.exploitPath.bit ∧ sig = cscoe) := by
  intro c hc hraw sig hsig
  exact (sig_facts c hc sig hsig).2 hraw

/-- `cscoe` is in a row that is scanned in the raw copy. -/
theorem cscoe_mem : ∃ c ∈ shieldCategories, c.isIn matchRaw = true
    ∧ c.cat = ShieldCat.exploitPath.bit ∧ cscoe ∈ c.sigs := by
  decide +kernel

/-- The rules are for the decoded copy only. -/
theorem rules_not_raw : ∀ r ∈ shieldRules, r.isIn matchRaw = false := by
  decide +kernel

end HttpShield
